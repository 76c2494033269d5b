import HeaderCards.Text

/-!
# Markdown

Text that must not be read as markup has a backslash put in front of every character that
could begin markup or a link. Reading each backslash together with the character after it
gives the text back.
-/

namespace HeaderCards.Markdown

/-- The character could begin markup or a link. -/
def isMarkup (c : Char) : Bool :=
  c ∈ ['\\', '[', ']', '*', '_', '\x60', '<', '>']

/-- The written form of one character. -/
def escapeChar (c : Char) : Text := if isMarkup c then ['\\', c] else [c]

/-- The text with every markup character escaped. -/
def escape (t : Text) : Text := t.flatMap escapeChar

@[simp] theorem escape_nil : escape [] = [] := rfl

@[simp] theorem escape_cons (c : Char) (t : Text) : escape (c :: t) = escapeChar c ++ escape t := by
  simp [escape]

/-- Escaping works character by character, so nothing happens at a seam. -/
@[simp] theorem escape_append (a b : Text) : escape (a ++ b) = escape a ++ escape b := by
  simp [escape]

/-- The text that an escaped text stands for. -/
def unescape : Text → Text
  | [] => []
  | ['\\'] => ['\\']
  | '\\' :: c :: t => c :: unescape t
  | c :: t => c :: unescape t

end HeaderCards.Markdown
