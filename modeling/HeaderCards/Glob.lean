import HeaderCards.Text

/-!
# Name patterns

A pattern selects names. A question mark stands for any one character, brackets for one
character of a set or, after an exclamation mark, for one outside it, a star for any
characters, and two stars for any number of whole path components. The first member of a
bracket may be a closing bracket. A pattern is read once; a reading error carries the
position at which it was found, counted in characters.
-/

namespace HeaderCards

/-- Why a pattern cannot be read. -/
inductive GlobFault where
  /-- Three stars in a row. -/
  | wildcards
  /-- Two stars that are not a path component of their own. -/
  | recursiveWildcards
  /-- Brackets that are empty or not closed. -/
  | range
  deriving DecidableEq, Repr

/-- A fault and its position in the pattern. -/
structure GlobError where
  position : Nat
  fault : GlobFault
  deriving DecidableEq, Repr

/-- The fault as a message names it. -/
def GlobFault.describe : GlobFault → Text
  | wildcards => "wildcards are either regular `*` or recursive `**`"
  | recursiveWildcards => "recursive wildcards must form a single path component"
  | range => "invalid range pattern"

/-- The message for a pattern that cannot be read. -/
def GlobError.message (e : GlobError) : Text :=
  "Pattern syntax error near position " ++ Nat.toDigits 10 e.position ++ ": " ++ e.fault.describe

/-- One step of a pattern. -/
inductive GlobToken where
  /-- This very character. -/
  | char (c : Char)
  | anyChar
  /-- A character in one of the closed ranges. -/
  | within (ranges : List (Char × Char))
  /-- A character in none of the closed ranges. -/
  | outside (ranges : List (Char × Char))
  /-- Any characters, slashes among them. -/
  | anySequence
  /-- Any number of whole path components, or all that is left. -/
  | anyFolders
  deriving DecidableEq, Repr

/-- A pattern is a sequence of steps. -/
abbrev Glob := List GlobToken

namespace Glob

/-- The ranges that the characters between brackets describe; a character by itself is a
range of one. -/
def ranges : Text → List (Char × Char)
  | first :: '-' :: last :: rest => (first, last) :: ranges rest
  | c :: rest => (c, c) :: ranges rest
  | [] => []

/-- The text in front of the first closing bracket, and the text behind it. -/
def closeBracket? (t : Text) : Option (Text × Text) :=
  match t.dropWhile (· ≠ ']') with
  | [] => none
  | _ :: behind => some (t.takeWhile (· ≠ ']'), behind)

/-- The text behind a bracket is shorter than the text that holds the bracket. -/
theorem length_lt_of_closeBracket? {t inside behind : Text}
    (h : closeBracket? t = some (inside, behind)) : behind.length < t.length := by
  have hl := (List.dropWhile_suffix (· ≠ ']') (l := t)).length_le
  unfold closeBracket? at h
  split at h
  · simp at h
  · next heq =>
    simp only [Option.some.injEq, Prod.mk.injEq] at h
    rw [heq, List.length_cons, h.2] at hl
    omega

/-- Read the steps of a pattern from a position on, given whether a path component begins
there. -/
def readFrom (position : Nat) (atStart : Bool) (t : Text) : Except GlobError Glob :=
  match t with
  | [] => .ok []
  | '?' :: rest => (readFrom (position + 1) false rest).map (.anyChar :: ·)
  | '*' :: '*' :: '*' :: _ => .error ⟨position + 2, .wildcards⟩
  | '*' :: '*' :: rest =>
    if atStart then
      match rest with
      | [] => .ok [.anyFolders]
      | '/' :: rest => (readFrom (position + 3) true rest).map (.anyFolders :: ·)
      | _ :: _ => .error ⟨position + 2, .recursiveWildcards⟩
    else .error ⟨position - 1, .recursiveWildcards⟩
  | '*' :: rest => (readFrom (position + 1) false rest).map (.anySequence :: ·)
  | '[' :: '!' :: first :: rest =>
    match h : closeBracket? rest with
    | none => .error ⟨position, .range⟩
    | some (inside, behind) =>
      (readFrom (position + inside.length + 4) false behind).map
        (.outside (ranges (first :: inside)) :: ·)
  | ['[', '!'] => .error ⟨position, .range⟩
  | '[' :: first :: rest =>
    match h : closeBracket? rest with
    | none => .error ⟨position, .range⟩
    | some (inside, behind) =>
      (readFrom (position + inside.length + 3) false behind).map
        (.within (ranges (first :: inside)) :: ·)
  | ['['] => .error ⟨position, .range⟩
  | c :: rest => (readFrom (position + 1) (c = '/') rest).map (.char c :: ·)
termination_by t.length
decreasing_by
  all_goals simp_all only [List.length_cons]
  all_goals try have hlt := length_lt_of_closeBracket? h
  all_goals omega

/-- Read a pattern. -/
def read (t : Text) : Except GlobError Glob := readFrom 0 true t

end Glob

end HeaderCards
