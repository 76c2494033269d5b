import HeaderCards.Text

/-!
# Descriptions

What a documentation card says about one function: its purpose, a note on each documented
parameter, and remarks. A note is found by name up to letter case, and the first one in
card order counts.
-/

namespace HeaderCards

/-- Whether a parameter is read, written, or both. -/
inductive Direction where
  | input
  | output
  | both
  deriving DecidableEq, Repr

namespace Direction

/-- The bare words of a direction, as they stand between the brackets of a tag. -/
def words : Direction → Text
  | .input => "in"
  | .output => "out"
  | .both => "in,out"

/-- The direction in brackets. -/
def tag (d : Direction) : Text := "[" ++ d.words ++ "]"

/-- The direction written with exactly these words. -/
def ofWords? (t : Text) : Option Direction :=
  [input, output, both].find? (·.words = t)

/-- Reading accepts exactly the written words. -/
theorem ofWords?_eq_some_iff {t : Text} {d : Direction} : ofWords? t = some d ↔ t = d.words := by
  constructor
  · intro h
    have := List.find?_some h
    simpa [eq_comm] using this
  · rintro rfl
    cases d <;> rfl

end Direction

/-- What a card says about one parameter. -/
structure Note where
  name : Text
  direction : Direction
  lines : List Text
  deriving DecidableEq, Repr

/-- What a card says about one function. The empty description stands for no card. -/
structure Description where
  purpose : List Text := []
  notes : List Note := []
  remarks : List Text := []
  deriving DecidableEq, Repr

namespace Description

instance : EmptyCollection Description := ⟨{}⟩

/-- Nothing is said. -/
def isEmpty (d : Description) : Bool :=
  d.purpose.isEmpty && d.notes.isEmpty && d.remarks.isEmpty

/-- The empty description is the only one that says nothing. -/
theorem isEmpty_iff {d : Description} : d.isEmpty = true ↔ d = ∅ := by
  constructor
  · rcases d with ⟨p, n, r⟩
    cases p <;> cases n <;> cases r <;> simp [isEmpty, EmptyCollection.emptyCollection]
  · rintro rfl
    rfl

/-- The place of the first note on `name`, whatever the case of its letters. -/
def place? (d : Description) (name : Text) : Option Nat :=
  d.notes.findIdx? (Text.sameLetters ·.name name)

/-- The first note on `name`, whatever the case of its letters. -/
def note? (d : Description) (name : Text) : Option Note :=
  d.notes.find? (Text.sameLetters ·.name name)

/-- The note found is the one at the place found. -/
theorem note?_eq (d : Description) (name : Text) :
    d.note? name = (d.place? name).bind (d.notes[·]?) := by
  rw [note?, place?, List.find?_eq_bind_findIdx?_getElem?]

end Description

end HeaderCards
