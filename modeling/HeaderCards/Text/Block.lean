import HeaderCards.Text.Space

/-!
# Blocks of lines

Two normal forms of a block. Squeezing drops the blank lines around a block and leaves one
empty line wherever blank lines stood inside it. Dedenting takes away the indentation that
all visible lines share, counted in characters.
-/

namespace HeaderCards.Block

/-! ## Blank lines -/

/-- The lines behind a visible line, with one empty line in front of a visible line when a
blank line has been passed since the last one. -/
def squeezeAfter (gap : Bool) : List Text → List Text
  | [] => []
  | l :: ls =>
    if Text.isBlank l then squeezeAfter true ls
    else if gap then [] :: l :: squeezeAfter false ls
    else l :: squeezeAfter false ls

/-- The block without blank lines around it and with one empty line for every run of blank
lines inside it. -/
def squeeze (ls : List Text) : List Text :=
  match ls.dropWhile Text.isBlank with
  | [] => []
  | l :: rest => l :: squeezeAfter false rest

@[simp] theorem squeeze_nil : squeeze [] = [] := rfl

/-- A blank line in front is dropped. -/
theorem squeeze_cons_of_isBlank {l : Text} (h : Text.isBlank l = true) (ls : List Text) :
    squeeze (l :: ls) = squeeze ls := by
  simp [squeeze, h]

/-- A visible line in front is kept. -/
theorem squeeze_cons_of_not_isBlank {l : Text} (h : Text.isBlank l = false) (ls : List Text) :
    squeeze (l :: ls) = l :: squeezeAfter false ls := by
  simp [squeeze, h]

/-! ## Indentation -/

/-- The number of white space characters at the front of a line. -/
def indentation (l : Text) : Nat := (l.takeWhile Text.isSpace).length

/-- The least indentation of a visible line, or zero when all lines are blank. -/
def margin (ls : List Text) : Nat :=
  ((ls.filter (!Text.isBlank ·)).map indentation).min?.getD 0

/-- One line without its first `n` characters and without white space at its end; a blank
line becomes empty. -/
def cutLine (n : Nat) (l : Text) : Text :=
  if Text.isBlank l then [] else Text.trimEnd (l.drop n)

/-- The block without the indentation its visible lines share. -/
def dedent (ls : List Text) : List Text := ls.map (cutLine (margin ls))

@[simp] theorem length_dedent (ls : List Text) : (dedent ls).length = ls.length := by
  simp [dedent]

end HeaderCards.Block
