import HeaderCards.Prototype
import HeaderCards.Text.Replace
import HeaderCards.Text.Space
import HeaderCards.Text.Word

/-!
# Reading a declaration

A declaration may be wrapped over several lines, which are joined without anything between
them. It has to end in a semicolon. Its name is the first identifier that an opening
parenthesis follows, its arguments stand between the first opening and the last closing
parenthesis, and its return type is its first word.

An argument is cut into words. The last word is the name, whose leading stars belong to the
type; the words before it, without qualifiers, are the type.
-/

namespace HeaderCards

/-- The piece of a declaration that could not be read. -/
inductive DeclarationPart where
  | functionName
  | argumentList
  | returnType
  | argumentName
  deriving DecidableEq, Repr

/-- Why a declaration cannot be read. -/
inductive DeclarationError where
  /-- The text does not end in a semicolon. -/
  | unterminated (text : Text)
  /-- A piece is missing from the text. -/
  | malformed (part : DeclarationPart) (text : Text)
  /-- Nothing stands between two commas or parentheses. -/
  | emptyArgument (function : Text)
  deriving DecidableEq, Repr

/-- The piece as a message names it. -/
def DeclarationPart.describe : DeclarationPart → Text
  | .functionName => "function name"
  | .argumentList => "argument list"
  | .returnType => "return type"
  | .argumentName => "argument name"

/-- The message for a declaration that cannot be read. -/
def DeclarationError.message : DeclarationError → Text
  | .unterminated t => "declaration does not end with ';': " ++ t
  | .malformed part t => "failed to read the " ++ part.describe ++ " of declaration: " ++ t
  | .emptyArgument function => "empty argument in declaration of " ++ function

namespace Declaration

/-- The text of a wrapped declaration: its lines joined, trimmed, and with a blank before
the star wherever joining has glued `float` to `*b`. -/
def textOf (lines : List Text) : Text :=
  Text.trim (Text.replace "float*b" "float *b" lines.flatten)

/-- The text opens with a parenthesis, white space in front of it apart. -/
def opensCall (t : Text) : Bool := Text.startsWith (Text.trimStart t) "("

/-- The identifier the text opens with, when a call follows it. -/
def callee? : Text → Option Text
  | [] => none
  | c :: cs =>
    if Text.isWordStart c && opensCall (cs.dropWhile Text.isWord) then
      some (c :: cs.takeWhile Text.isWord)
    else none

/-- The first identifier of the text that an opening parenthesis follows, given whether the
text stands inside a word that has been tried. What is left of such a word ends where the
word ends, so it need not be tried again. -/
def functionNameAfter? (tried : Bool) : Text → Option Text
  | [] => none
  | c :: cs =>
    if tried && Text.isWord c then functionNameAfter? true cs
    else
      match callee? (c :: cs) with
      | some name => some name
      | none => functionNameAfter? (Text.isWordStart c) cs

/-- The first identifier of the text that an opening parenthesis follows. -/
def functionName? (t : Text) : Option Text := functionNameAfter? false t

@[simp] theorem functionName?_nil : functionName? [] = none := rfl

/-- What is left of a word that no opening parenthesis follows holds no name. -/
theorem functionNameAfter?_true {cs : Text} (h : opensCall (cs.dropWhile Text.isWord) = false) :
    functionNameAfter? true cs = functionName? cs := by
  induction cs with
  | nil => rfl
  | cons c cs ih =>
    cases hc : Text.isWord c
    · simp [functionName?, functionNameAfter?, hc]
    · rw [List.dropWhile_cons_of_pos hc] at h
      have hn : callee? (c :: cs) = none := by simp [callee?, h]
      cases hs : Text.isWordStart c <;>
        simp [functionName?, functionNameAfter?, hc, hn, hs, ih h]

/-- The name is looked for at the front of the text first, and then behind its first
character. -/
theorem functionName?_cons (c : Char) (cs : Text) :
    functionName? (c :: cs) = (callee? (c :: cs)).or (functionName? cs) := by
  cases hn : callee? (c :: cs) with
  | some name => simp [functionName?, functionNameAfter?, hn]
  | none =>
    cases hs : Text.isWordStart c
    · simp [functionName?, functionNameAfter?, hn, hs]
    · have h : opensCall (cs.dropWhile Text.isWord) = false := by simpa [callee?, hs] using hn
      simp [functionName?, functionNameAfter?, hn, hs]
      exact functionNameAfter?_true h

/-- What stands on a line between the first opening and the last closing parenthesis. -/
def parenthesized? (line : Text) : Option Text :=
  match line.dropWhile (· ≠ '(') with
  | [] => none
  | _ :: behind => Text.beforeLast? ')' behind

/-- What stands between parentheses on the first line that has an opening one and a closing
one behind it. -/
def argumentList? (t : Text) : Option Text := (t.splitOn '\n').findSome? parenthesized?

/-- The first word of a text that does not begin with white space. -/
def returnType (t : Text) : Text := t.takeWhile (!Text.isSpace ·)

/-- The words that qualify a type without being part of it. -/
def qualifiers : List Text := ["const", "OPENBLAS_CONST"]

/-- The type written with these words and stars: qualifiers are left out, one blank
separates words, and no blank precedes a star. -/
def typeOf (words : List Text) (stars : Text) : Text :=
  Text.replace " *" "*" (List.intercalate " " (words.filter (· ∉ qualifiers)) ++ stars)

/-- Read one argument of the function. -/
def readArgument (function piece : Text) : Except DeclarationError Argument :=
  let words := Text.words piece
  match words.getLast? with
  | none => .error (.emptyArgument function)
  | some last =>
    let name := last.dropWhile (· = '*')
    if name = [] then .error (.malformed .argumentName piece)
    else .ok ⟨typeOf words.dropLast (last.takeWhile (· = '*')), name⟩

/-- Read the comma separated arguments of the function. -/
def readArguments (function list : Text) : Except DeclarationError (List Argument) :=
  (list.splitOn ',').mapM fun piece => readArgument function (Text.trim piece)

/-- Read the prototype that the lines declare. -/
def read (lines : List Text) : Except DeclarationError Prototype :=
  let t := textOf lines
  if Text.endsWith t ";" then
    match functionName? t with
    | none => .error (.malformed .functionName t)
    | some name =>
      match argumentList? t with
      | none => .error (.malformed .argumentList t)
      | some list =>
        if returnType t = [] then .error (.malformed .returnType t)
        else (readArguments name list).map fun arguments => ⟨name, returnType t, arguments⟩
  else .error (.unterminated t)

end Declaration

end HeaderCards
