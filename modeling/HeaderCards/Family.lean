import HeaderCards.Text

/-!
# Function families

A header declares the functions of one family. The family fixes how its functions are
named, which documentation source belongs to a function, and which argument selects the
matrix layout.
-/

namespace HeaderCards

/-- The two families of linear algebra functions with a C header of their own. -/
inductive Family where
  /-- Vector and matrix kernels, declared in `cblas.h`. -/
  | blas
  /-- Factorisations and solvers, declared in `lapacke.h`. -/
  | lapack
  deriving DecidableEq, Repr

namespace Family

/-- The name of the family on the command line and in records. -/
def name : Family → Text
  | .blas => "blas"
  | .lapack => "lapack"

/-- The family of that very name. -/
def ofName? (t : Text) : Option Family :=
  [blas, lapack].find? (·.name = t)

/-- A family is found under its own name and no other. -/
theorem ofName?_eq_some_iff {t : Text} {f : Family} : ofName? t = some f ↔ t = f.name := by
  constructor
  · intro h
    have := List.find?_some h
    simpa [eq_comm] using this
  · rintro rfl
    cases f <;> rfl

/-- The characters every function name of the family opens with. -/
def opening : Family → Text
  | .blas => "cblas_"
  | .lapack => "LAPACKE_"

/-- The file extension of the family's documentation sources. -/
def extension : Family → Text
  | .blas => "c"
  | .lapack => "f"

/-- The part of a function name behind the family's opening, or the whole name. -/
def stem (f : Family) (function : Text) : Text :=
  (Text.dropStart? f.opening function).getD function

/-- The file that documents a function: its stem, a dot and the extension. -/
def cardFile (f : Family) (function : Text) (extension? : Option Text) : Text :=
  f.stem function ++ "." ++ extension?.getD f.extension

@[simp] theorem stem_opening_append (f : Family) (t : Text) : f.stem (f.opening ++ t) = t := by
  simp [stem, Text.dropStart?_eq_some_iff.mpr rfl]

/-- Whether the argument name is the family's matrix layout selector. -/
def isLayout : Family → Text → Bool
  | .blas, a => Text.sameLetters a "order" || Text.sameLetters a "layout"
  | .lapack, a => a == "matrix_layout"

/-- The family a header belongs to, told by the start of its file name in any case. -/
def ofHeader? (file : Text) : Option Family :=
  let folded := Text.foldCase file
  if Text.startsWith folded "cblas" then some .blas
  else if Text.startsWith folded "lapacke" then some .lapack
  else none

end Family

end HeaderCards
