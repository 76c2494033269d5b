import HeaderCards.Description
import HeaderCards.Text.Space

/-!
# Parameter tags

A tag line names a parameter and, in brackets, the direction in which it is used. The
reasons for which a card can be refused are listed here, since a bad tag is one of them.
-/

namespace HeaderCards

/-- Why a documentation card is refused. -/
inductive CardError where
  /-- A tag line lacks its brackets, its direction or its name. -/
  | malformedTag (line : Text)
  /-- The words in the brackets are no direction. -/
  | unknownDirection (words : Text) (name : Text)
  /-- A line inside the card has no known shape. -/
  | undecodableLine (number : Nat) (line : Text)
  /-- The card has no purpose text where one is required. -/
  | missingPurpose
  deriving DecidableEq, Repr

/-- The message for a card that is refused. -/
def CardError.message : CardError → Text
  | .malformedTag line => "failed to read the param tag: " ++ line
  | .unknownDirection words name => "invalid param direction `" ++ words ++ "` for " ++ name
  | .undecodableLine number line =>
    "undecodable comment line " ++ Nat.toDigits 10 number ++ ": " ++ line
  | .missingPurpose => "no purpose found"

/-- The head of a note: which parameter it is about. -/
structure Tag where
  name : Text
  direction : Direction
  deriving DecidableEq, Repr

namespace Tag

/-- Parameter names are written with ASCII letters, digits and underscores. -/
def isNameChar (c : Char) : Bool := c.isAlphanum || c == '_'

/-- The words in the first brackets of a tag, and the name behind them. -/
def fields? : Text → Option (Text × Text)
  | [] => none
  | c :: cs =>
    match Text.dropStart? "param[" (c :: cs) with
    | none => fields? cs
    | some rest =>
      match rest.dropWhile (· ≠ ']') with
      | [] => none
      | _ :: behind =>
        some (rest.takeWhile (· ≠ ']'), (Text.trimStart behind).takeWhile isNameChar)

/-- Read the tag on a line. -/
def read (line : Text) : Except CardError Tag :=
  match fields? line with
  | none => .error (.malformedTag (Text.trim line))
  | some (words, name) =>
    if words = [] ∨ name = [] then .error (.malformedTag (Text.trim line))
    else
      match Direction.ofWords? words with
      | none => .error (.unknownDirection words name)
      | some direction => .ok ⟨name, direction⟩

/-- The written form of a tag. -/
def write (t : Tag) : Text := "\\param" ++ t.direction.tag ++ " " ++ t.name

end Tag

end HeaderCards
