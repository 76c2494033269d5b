import HeaderCards.Card.Dialect

/-!
# Writing a card

The card of a description has three parts: the purpose, one tagged block for every note,
and the further details. Text and notes stand in verbatim blocks, and every line is written
in the comment column of the dialect.
-/

namespace HeaderCards

/-- The heading line that begins a part of the card. -/
def Heading.line : Heading → Text
  | purpose => "\\par Purpose:"
  | arguments => "Arguments:"
  | furtherDetails => "\\par Further Details:"

/-- The lines inside a verbatim block. -/
def verbatim (ls : List Text) : List Text := blockOpen :: (ls ++ [blockClose])

/-- The tag of a note. -/
def Note.heading (n : Note) : Tag := ⟨n.name, n.direction⟩

/-- The tag of a note and the block with its lines. -/
def Note.block (n : Note) : List Text := n.heading.write :: verbatim n.lines

/-- The stripped lines of a card that says what the description says. -/
def Description.block (d : Description) : List Text :=
  Heading.purpose.line :: (verbatim ([] :: d.purpose) ++
    Heading.arguments.line :: (d.notes.flatMap Note.block ++
      Heading.furtherDetails.line :: verbatim ([] :: d.remarks)))

/-- The card of a description in a dialect. -/
def Card.write (dialect : Dialect) (d : Description) : Text :=
  Text.unlines (d.block.map dialect.column)

end HeaderCards
