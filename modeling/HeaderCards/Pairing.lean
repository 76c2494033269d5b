import HeaderCards.Description
import HeaderCards.Family
import HeaderCards.Prototype

/-!
# Pairing arguments with notes

An argument is documented under its own name, whatever the case of its letters. Cards of
the kernels put the letter of the data type in front of a vector's name; that letter stands
in the function name behind the family's opening, or one place further on. So the argument
is looked for under its own name first, and then under its name with each of these two
letters in front.
-/

namespace HeaderCards

/-- The places in a function name at which the letter of the data type can stand. -/
def Family.letterPlaces : Family → List Nat
  | .blas => [6, 7]
  | .lapack => []

/-- The names under which a card may document an argument, the most direct first. -/
def Family.cardNames (f : Family) (function argument : Text) : List Text :=
  argument :: f.letterPlaces.filterMap fun i => function[i]?.map (· :: argument)

/-- The note on an argument of the function. -/
def Family.noteFor? (f : Family) (function : Text) (d : Description) (argument : Text) :
    Option Note :=
  (f.cardNames function argument).findSome? d.note?

/-- The place of the note on an argument of the function. -/
def Family.placeFor? (f : Family) (function : Text) (d : Description) (argument : Text) :
    Option Nat :=
  (f.cardNames function argument).findSome? d.place?

/-- An argument and the note on it. -/
structure Pairing where
  argument : Argument
  note? : Option Note
  deriving DecidableEq, Repr

/-- Every argument of the prototype with the note on it, in order. -/
def Prototype.pair (p : Prototype) (f : Family) (d : Description) : List Pairing :=
  p.arguments.map fun a => ⟨a, f.noteFor? p.name d a.name⟩

@[simp] theorem Prototype.length_pair (p : Prototype) (f : Family) (d : Description) :
    (p.pair f d).length = p.arguments.length := by
  simp [Prototype.pair]

/-- Pairing keeps the arguments and their order. -/
@[simp] theorem Prototype.map_argument_pair (p : Prototype) (f : Family) (d : Description) :
    (p.pair f d).map Pairing.argument = p.arguments := by
  simp [Prototype.pair, Function.comp_def]

/-- What is said of a thing that nothing documents. -/
def noDescription : Text := "No description available."

/-- What is said of an argument without a note. -/
def Family.fallback (f : Family) (argument : Text) : Text :=
  if f.isLayout argument then "Specifies the matrix layout." else noDescription

end HeaderCards
