import HeaderCards.Text.Space

/-!
# Wrapped card lines

In sources generated as C every line of a documentation card is a comment of its own. A
line has one of four shapes, and each shape is reached from its written form.
-/

namespace HeaderCards

/-- One line of a card whose lines are wrapped in C comments. -/
inductive CardLine where
  /-- White space only. -/
  | blank
  /-- A card line without text. -/
  | emptyDoc
  /-- A card line with its text, spaces kept. -/
  | doc (text : Text)
  /-- Any other comment, such as a heading or an underline, with its text trimmed. -/
  | comment (text : Text)
  deriving DecidableEq, Repr

namespace CardLine

/-- The text a line carries. -/
def text : CardLine → Text
  | blank => []
  | emptyDoc => []
  | doc t => t
  | comment t => t

/-- The written form of a line. -/
def write : CardLine → Text
  | blank => []
  | emptyDoc => "/* > */"
  | doc t => "/* > " ++ t ++ " */"
  | comment t => "/*  " ++ t ++ " */"

/-- The shape of a line, white space at its end apart, or nothing when it has none of the
four. -/
def decode? (line : Text) : Option CardLine :=
  let t := Text.trimEnd line
  if t = [] then some blank
  else if t = "/* > */" then some emptyDoc
  else
    match (Text.dropStart? "/* > " t).bind (Text.dropEnd? " */") with
    | some x => some (doc x)
    | none =>
      if Text.startsWith t "/* >" then none
      else ((Text.dropStart? "/*" t).bind (Text.dropEnd? "*/")).map fun x => comment (Text.trim x)

end CardLine

end HeaderCards
