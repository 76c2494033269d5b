import HeaderCards.Card.Dialect
import HeaderCards.Text.Block

/-!
# Reading a card

A card is read line by line. A heading always wins: whatever the reader was doing, it turns
to the part that the heading begins. In the purpose and in the further details the text
runs from the first blank line of a verbatim block to its end. In the arguments a tag is
followed by a verbatim block with its note, and a note counts once its block is closed.

The mode of the reader carries the tag and the lines of an unfinished note, so a note can
only be unfinished while the reader looks for its block or is inside it.
-/

namespace HeaderCards

/-- The parts of a card whose text is captured as it stands. -/
inductive Topic where
  | purpose
  | remarks
  deriving DecidableEq, Repr

/-- What the reader is looking for. -/
inductive Mode where
  /-- A heading. -/
  | outside
  /-- The verbatim block with the text of a topic. -/
  | seekingBlock (topic : Topic)
  /-- The blank line that precedes the text, inside the block. -/
  | seekingText (topic : Topic)
  /-- The end of the text. -/
  | inText (topic : Topic)
  /-- The tag of a parameter. -/
  | seekingTag
  /-- The verbatim block with the note on a tagged parameter. -/
  | seekingNote (tag : Tag)
  /-- The end of the note, of which these lines have been read, the newest first. -/
  | inNote (tag : Tag) (lines : List Text)
  deriving DecidableEq, Repr

/-- The mode in which a heading leaves the reader. -/
def Heading.mode : Heading → Mode
  | purpose => .seekingBlock .purpose
  | arguments => .seekingTag
  | furtherDetails => .seekingBlock .remarks

/-- The note that a tag and the lines of its block make up. -/
def Tag.note (t : Tag) (lines : List Text) : Note := ⟨t.name, t.direction, lines⟩

/-- The mode of the reader and what it has collected so far, the newest first. -/
structure Reader where
  mode : Mode := .outside
  purpose : List Text := []
  notes : List Note := []
  remarks : List Text := []
  deriving DecidableEq, Repr

namespace Reader

/-- Add a line to the text of a topic. -/
def capture (r : Reader) : Topic → Text → Reader
  | .purpose, line => { r with purpose := line :: r.purpose }
  | .remarks, line => { r with remarks := line :: r.remarks }

/-- Read one stripped line that is no heading. -/
def stepInside (d : Dialect) (r : Reader) (line : Text) : Except CardError Reader :=
  match r.mode with
  | .outside => .ok r
  | .seekingBlock topic =>
    .ok (if d.opens line then { r with mode := .seekingText topic } else r)
  | .seekingText topic =>
    .ok (if Text.isBlank line then { r with mode := .inText topic }
      else if d.closes line then { r with mode := .outside }
      else r)
  | .inText topic =>
    .ok (if d.closes line then { r with mode := .outside } else r.capture topic line)
  | .seekingTag =>
    if d.isTag line then (Tag.read line).map fun tag => { r with mode := .seekingNote tag }
    else .ok r
  | .seekingNote tag =>
    .ok (if d.opens line then { r with mode := .inNote tag [] } else r)
  | .inNote tag lines =>
    .ok (if d.closes line then
        { r with mode := .seekingTag, notes := tag.note lines.reverse :: r.notes }
      else { r with mode := .inNote tag (Text.trim line :: lines) })

/-- Read one stripped line. -/
def step (d : Dialect) (r : Reader) (line : Text) : Except CardError Reader :=
  match d.heading? line with
  | some h => .ok { r with mode := h.mode }
  | none => r.stepInside d line

/-- Strip and read one numbered line. -/
def stepLine (d : Dialect) (r : Reader) (line : Text × Nat) : Except CardError Reader :=
  d.strip line.2 line.1 >>= r.step d

/-- What has been read, once there are no more lines. -/
def finish (d : Dialect) (r : Reader) : Except CardError Description :=
  let purpose := Block.squeeze r.purpose.reverse
  if d.requiresPurpose && purpose.isEmpty then .error .missingPurpose
  else .ok ⟨purpose, r.notes.reverse, Block.squeeze r.remarks.reverse⟩

end Reader

namespace Card

/-- Read a card in a given dialect. -/
def readAs (d : Dialect) (t : Text) : Except CardError Description :=
  (d.cardLines (Text.lines t)).foldlM (Reader.stepLine d) {} >>= Reader.finish d

/-- Read a card in the dialect its text is written in. -/
def read (t : Text) : Except CardError Description := readAs (Dialect.ofText t) t

end Card

end HeaderCards
