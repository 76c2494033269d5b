import HeaderCards.Family
import HeaderCards.Prototype.Declaration
import HeaderCards.Prototype.Distinct
import HeaderCards.Text.Lines

/-!
# Headers

A header is scanned line by line. A declaration begins on a line with the family's opening
pattern and runs to the first line that ends in a semicolon; lines between declarations are
passed over. A declaration that cannot be read fails the whole header, and so does one that
is still open at the end. Of the declarations read, the supported ones are kept, and of each
name the first.

A semicolon with a comment behind it does not end its declaration: what follows, up to the next
line that does end in a semicolon, is taken for a part of it. A function declared there is lost,
and there need be no error.
-/

namespace HeaderCards.Header

/-- The line after which the kernel declarations begin. -/
def regionStart : Text := "typedef CBLAS_ORDER CBLAS_LAYOUT;"

/-- The line at which the kernel declarations end. -/
def regionEnd : Text := "/*** BFLOAT16 and INT8 extensions ***/"

/-- Lines that open like this are banners. -/
def banner : Text := "/***"

/-- The lines that may hold declarations. Kernel headers are trimmed and confined to the
region between its two marker lines, without banners; a header that lacks the first marker
counts from its beginning. -/
def declarationLines : Family → Text → List Text
  | .blas, t =>
    let trimmed := (Text.lines t).map Text.trim
    let region :=
      if regionStart ∈ trimmed then trimmed.dropWhile (· ≠ regionStart) else trimmed
    (region.takeWhile (· ≠ regionEnd)).filter (!Text.startsWith · banner)
  | .lapack, t => Text.lines t

/-- A line opens a kernel declaration when its second word begins with the family's opening,
goes on with word characters, and is followed by an opening parenthesis. -/
def opensKernel (line : Text) : Bool :=
  let afterType := line.dropWhile (!Text.isSpace ·)
  let atName := Text.trimStart afterType
  !(line.takeWhile (!Text.isSpace ·)).isEmpty && atName ≠ afterType &&
    match Text.dropStart? Family.blas.opening atName with
    | none => false
    | some rest =>
      !(rest.takeWhile Text.isWord).isEmpty &&
        Text.startsWith (Text.trimStart (rest.dropWhile Text.isWord)) "("

/-- Whether a declaration of the family begins on the line. -/
def opens : Family → Text → Bool
  | .blas, line => opensKernel line
  | .lapack, line => Text.startsWith line "lapack_int LAPACKE_"

/-- A declaration ends on a line whose last visible character is a semicolon. -/
def closes (line : Text) : Bool := Text.endsWith (Text.trimEnd line) ";"

/-- Functions with a variable argument list have no binding. Neither have solver variants
that take their work space from the caller or a selection function as an argument. -/
def isSupported : Family → Prototype → Bool
  | .blas, p => p.arguments.all (·.name ≠ "...")
  | .lapack, p =>
    p.arguments.all (·.name ≠ "...") && !Text.endsWith p.name "_work" &&
      p.arguments.all (!Text.includes "SELECT" ·.type)

/-- The lines of the declaration that is still open and the prototypes read so far, the
newest first. -/
structure Scan where
  pending : List Text := []
  found : List Prototype := []
  deriving DecidableEq, Repr

/-- Read one more line. -/
def Scan.step (f : Family) (s : Scan) (line : Text) : Except DeclarationError Scan :=
  if s.pending.isEmpty && !opens f line then .ok s
  else
    let pending := line :: s.pending
    if closes line then
      (Declaration.read pending.reverse).map fun p => ⟨[], p :: s.found⟩
    else .ok { s with pending }

/-- What the scan has found, once there are no more lines. -/
def Scan.finish (s : Scan) : Except DeclarationError (List Prototype) :=
  if s.pending.isEmpty then .ok s.found.reverse
  else .error (.unterminated s.pending.reverse.flatten)

/-- The prototypes that the lines declare, in order. -/
def declared (f : Family) (lines : List Text) : Except DeclarationError (List Prototype) :=
  lines.foldlM (Scan.step f) {} >>= Scan.finish

/-- The supported prototypes of a header, in order and with distinct names. -/
def prototypes (f : Family) (t : Text) : Except DeclarationError (List Prototype) :=
  (declared f (declarationLines f t)).map fun ps => Prototype.distinct (ps.filter (isSupported f))

end HeaderCards.Header
