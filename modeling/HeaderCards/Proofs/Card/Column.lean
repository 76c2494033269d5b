import HeaderCards.Card.Writer
import HeaderCards.Proofs.Card.Parts
import HeaderCards.Proofs.Card.Shape
import HeaderCards.Proofs.Card.Span
import HeaderCards.Proofs.Text.Lines
import HeaderCards.Proofs.Text.Space

/-!
# Lines in the comment column

A line that is put into the comment column of a dialect is stripped to itself, and a card
that consists of such lines is read from its first line to its last.
-/

namespace HeaderCards

/-- A line with text stands between the two ends of a comment. -/
theorem CardLine.write_doc (l : Text) : (doc l).write = "/* > " ++ l ++ " */" := rfl

/-- A wrapped line with text is recognised as such. -/
theorem CardLine.decode?_doc (l : Text) : decode? (doc l).write = some (doc l) := by
  have hdecode := decode?_write_append (c := doc l) (w := []) trivial Text.isBlank_nil
  rwa [List.append_nil] at hdecode

namespace Dialect

variable {d : Dialect}

/-- A line in the comment column is stripped to itself. -/
theorem strip_column (d : Dialect) (number : Nat) (l : Text) :
    d.strip number (d.column l) = .ok l := by
  cases d with
  | fortran => rfl
  | f2c =>
    rw [strip, column, CardLine.decode?_doc]
    rfl

/-- Lines in the comment column are stripped to themselves. -/
theorem stripAll_column (ls : List Text) (number : Nat) :
    d.stripAll ((ls.map d.column).zipIdx number) = (ls, none) := by
  induction ls generalizing number with
  | nil => rfl
  | cons l ls ih =>
    rw [List.map_cons, List.zipIdx_cons, stripAll, strip_column]
    simp only [ih]

/-- A line in the comment column begins and ends like a comment line. -/
theorem isWrapped_column (l : Text) : isWrapped (f2c.column l) = true :=
  Text.startsWith_iff.mpr ⟨' ' :: l ++ " */", rfl⟩

/-- A card in the comment column has no lines around it. -/
theorem cardLines_column (ls : List Text) :
    d.cardLines (ls.map d.column) = (ls.map d.column).zipIdx 1 := by
  cases d with
  | fortran => exact cardLines_fortran _
  | f2c =>
    have hwrapped : ∀ l ∈ ls.map f2c.column, isWrapped l = true :=
      List.forall_mem_map.mpr fun l _ => isWrapped_column l
    by_cases hls : ls = []
    · rw [hls]
      rfl
    · have hspan := isSpan_of_forall (by simpa using hls) hwrapped
      simpa using @cardLines_of_span [] _ [] hspan (by simp) (by simp)

/-- The line fits into the comment column: it holds no line feed, and where nothing stands
behind it on the card line it does not end in a carriage return. -/
def Fits : Dialect → Text → Prop
  | fortran, l => '\n' ∉ l ∧ l.getLast? ≠ some '\r'
  | f2c, l => '\n' ∉ l

instance : (d : Dialect) → (l : Text) → Decidable (d.Fits l)
  | fortran, l => inferInstanceAs (Decidable ('\n' ∉ l ∧ l.getLast? ≠ some '\r'))
  | f2c, l => inferInstanceAs (Decidable ('\n' ∉ l))

/-- A line without the characters of a line ending fits into every comment column. -/
theorem fits_of_not_mem {l : Text} (hfeed : '\n' ∉ l) (hreturn : '\r' ∉ l) : d.Fits l := by
  cases d with
  | fortran => exact ⟨hfeed, fun hlast => hreturn (List.mem_of_getLast? hlast)⟩
  | f2c => exact hfeed

/-- A card line with a text that fits is one line. -/
theorem isLine_column {l : Text} (h : d.Fits l) : Text.IsLine (d.column l) := by
  cases d with
  | fortran =>
    obtain ⟨hfeed, hlast⟩ := h
    refine ⟨fun hmem => ?_, ?_⟩
    · rcases List.mem_append.mp hmem with hmem | hmem
      · exact absurd hmem (by decide)
      · exact hfeed hmem
    · rw [column, List.getLast?_append]
      cases hl : l.getLast? with
      | none => decide
      | some c =>
        rw [hl] at hlast
        exact hlast
  | f2c =>
    have hend : (" */" : Text).getLast? = some '/' := rfl
    rw [column, CardLine.write_doc]
    refine ⟨fun hmem => ?_, ?_⟩
    · rcases List.mem_append.mp hmem with hmem | hmem
      · rcases List.mem_append.mp hmem with hmem | hmem
        · exact absurd hmem (by decide)
        · exact h hmem
      · exact absurd hmem (by decide)
    · rw [List.getLast?_append, hend]
      exact fun he => absurd (Option.some.inj he) (by decide)

/-- A card in the comment column is read back line by line. -/
theorem lines_unlines_column {ls : List Text} (h : ∀ l ∈ ls, d.Fits l) :
    Text.lines (Text.unlines (ls.map d.column)) = ls.map d.column := by
  apply Text.lines_unlines
  intro l hl
  obtain ⟨k, hk, rfl⟩ := List.mem_map.mp hl
  exact isLine_column (h k hk)

/-- A line in the comment column of Fortran sources is no wrapped line. -/
private theorem trimEnd_column_fortran_ne (l : Text) :
    Text.trimEnd (fortran.column l) ≠ "/* > \\par Purpose: */" := by
  intro he
  have hprefix : ("/* > \\par Purpose: */" : Text) <+: fortran.column l :=
    he ▸ Text.trimEnd_isPrefix (fortran.column l)
  have hchar : '/' = '*' := (List.cons_prefix_cons.mp hprefix).1
  exact absurd hchar (by decide)

/-- A card is found to be in the dialect in whose comment column it stands. -/
theorem ofText_unlines_column {ls : List Text} (h : ∀ l ∈ ls, d.Fits l)
    (hheading : Heading.purpose.line ∈ ls) : ofText (Text.unlines (ls.map d.column)) = d := by
  rw [ofText, lines_unlines_column h, List.any_map]
  cases d with
  | fortran =>
    refine if_neg fun hany => ?_
    obtain ⟨l, -, hl⟩ := List.any_eq_true.mp hany
    exact trimEnd_column_fortran_ne l (of_decide_eq_true hl)
  | f2c => exact if_pos (List.any_eq_true.mpr ⟨Heading.purpose.line, hheading, by decide⟩)

end Dialect

end HeaderCards
