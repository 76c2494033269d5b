import HeaderCards.Card.Line
import HeaderCards.Card.Tag
import HeaderCards.Text.Lines

/-!
# Card dialects

Documentation cards are written in one of two dialects. In Fortran sources a card line has
a comment column of three characters and a marker counts anywhere on the line. In sources
generated as C every card line is a wrapped comment and a marker fills its whole line. The
dialect decides how a line is stripped, which lines belong to the card, and what counts as
a marker; all else is common to both.
-/

namespace HeaderCards

/-- The headings that begin a part of a card. -/
inductive Heading where
  | purpose
  | arguments
  | furtherDetails
  deriving DecidableEq, Repr

/-- How the lines of a card are written. -/
inductive Dialect where
  /-- A comment column of three characters. -/
  | fortran
  /-- A wrapped C comment for every line. -/
  | f2c
  deriving DecidableEq, Repr

/-- The marker that opens a verbatim block. -/
def blockOpen : Text := "\\verbatim"

/-- The marker that closes a verbatim block. -/
def blockClose : Text := "\\endverbatim"

namespace Dialect

/-- The name of the dialect. -/
def name : Dialect → Text
  | fortran => "fortran"
  | f2c => "f2c"

/-- A text is in the wrapped dialect when one of its lines is the wrapped purpose heading. -/
def ofText (t : Text) : Dialect :=
  if (Text.lines t).any (Text.trimEnd · = "/* > \\par Purpose: */") then f2c else fortran

/-- Whether a card without purpose text is refused. -/
def requiresPurpose : Dialect → Bool
  | fortran => false
  | f2c => true

/-- The text of a card line, by its number in the source. -/
def strip : Dialect → Nat → Text → Except CardError Text
  | fortran, _, line => .ok (line.drop 3)
  | f2c, number, line =>
    match CardLine.decode? line with
    | some l => .ok l.text
    | none => .error (.undecodableLine number line)

/-- The card line that carries the text. -/
def column : Dialect → Text → Text
  | fortran, t => "*> " ++ t
  | f2c, t => (CardLine.doc t).write

/-- The line is written as a wrapped card line. -/
def isWrapped (line : Text) : Bool := Text.startsWith line "/* >"

/-- The lines of the card as a range of positions, the end excluded. A card in C comments
runs from the first wrapped line to the last. -/
def region : Dialect → List Text → Nat × Nat
  | fortran, ls => (0, ls.length)
  | f2c, ls =>
    match ls.findIdx? isWrapped with
    | none => (0, 0)
    | some first => (first, ls.length - (ls.reverse.takeWhile (!isWrapped ·)).length)

/-- The lines of the card, each with its number in the source, counted from one. -/
def cardLines (d : Dialect) (ls : List Text) : List (Text × Nat) :=
  let r := d.region ls
  ((ls.zipIdx 1).take r.2).drop r.1

/-- The heading on a stripped line. -/
def heading? : Dialect → Text → Option Heading
  | fortran, line =>
    if Text.includes "Purpose:" line then some .purpose
    else if Text.includes "Arguments:" line then some .arguments
    else if Text.includes "Further Details:" line then some .furtherDetails
    else none
  | f2c, line =>
    let t := Text.trim line
    if t = "\\par Purpose:" then some .purpose
    else if t = "Arguments:" then some .arguments
    else if t = "\\par Further Details:" then some .furtherDetails
    else none

/-- The stripped line opens a verbatim block. -/
def opens : Dialect → Text → Bool
  | fortran, line => Text.includes blockOpen line
  | f2c, line => Text.trim line = blockOpen

/-- The stripped line closes a verbatim block. -/
def closes : Dialect → Text → Bool
  | fortran, line => Text.includes blockClose line
  | f2c, line => Text.trim line = blockClose

/-- The stripped line is a parameter tag. -/
def isTag : Dialect → Text → Bool
  | fortran, line => Text.includes "\\param[" line
  | f2c, line => Text.startsWith (Text.trimStart line) "\\param["

end Dialect

end HeaderCards
