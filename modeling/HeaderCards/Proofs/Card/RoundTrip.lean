import HeaderCards.Proofs.Card.Found
import HeaderCards.Proofs.Card.Reading

/-!
# Writing and reading cards

What is written as a card is read back in the same dialect, with its blocks squeezed and its
notes trimmed. What has been read from any card is already of this form, so that writing and
reading it again changes nothing.
-/

namespace HeaderCards

/-- What is left of a description by writing and reading it: its texts are squeezed and the
lines of its notes are trimmed. -/
def Description.normal (D : Description) : Description :=
  ⟨Block.squeeze D.purpose, D.notes.map Note.trimmed, Block.squeeze D.remarks⟩

variable {d : Dialect} {D : Description}

/-- The lines of a written card say what the description says, the notes trimmed. -/
theorem Description.Writable.gather_write (h : D.Writable d) :
    d.gather (d.cardLines (Text.lines (Card.write d D))) =
      .ok ⟨D.purpose, D.notes.map Note.trimmed, D.remarks⟩ := by
  rw [Card.write, Dialect.lines_unlines_column h.fits_of_mem_block, Dialect.cardLines_column,
    Dialect.gather, Dialect.stripAll_column, h.mapM_content_block]
  simp [Topic.text, Description.append_def, EmptyCollection.emptyCollection]

/-- A written card is recognised in its dialect. -/
theorem Description.Writable.ofText_write (h : D.Writable d) :
    Dialect.ofText (Card.write d D) = d :=
  Dialect.ofText_unlines_column h.fits_of_mem_block (List.mem_cons_self ..)

/-- A description with a visible purpose is not refused. -/
theorem Description.Writable.conclude_eq (h : D.Writable d) :
    d.conclude ⟨D.purpose, D.notes.map Note.trimmed, D.remarks⟩ = .ok D.normal := by
  refine if_neg fun ⟨hrequired, hnil⟩ => ?_
  obtain ⟨l, hl, hvisible⟩ := h.purposed hrequired
  rw [Block.squeeze_eq_nil_iff.mp hnil l hl] at hvisible
  contradiction

/-- A written card is read back. -/
theorem Description.Writable.read_write (h : D.Writable d) :
    Card.read (Card.write d D) = .ok D.normal := by
  rw [Card.read, h.ofText_write, Card.readAs_eq_gather, h.gather_write, ok_bind, h.conclude_eq]

/-- A description that is not refused has been squeezed, and has a purpose if need be. -/
theorem Dialect.conclude_eq_ok_iff {said : Description} :
    d.conclude said = .ok D ↔
      D = ⟨Block.squeeze said.purpose, said.notes, Block.squeeze said.remarks⟩ ∧
        (d.requiresPurpose = true → Block.squeeze said.purpose ≠ []) := by
  rw [conclude]
  split
  · next h => exact ⟨fun he => by contradiction, fun he => absurd h.2 (he.2 h.1)⟩
  · next h =>
    refine ⟨fun he => ?_, fun he => congrArg _ he.1.symm⟩
    cases he
    exact ⟨rfl, fun hrequired hnil => h ⟨hrequired, hnil⟩⟩

/-- Squeezing adds no text but the empty one. -/
theorem Description.mem_texts_squeeze {said : Description} {l : Text}
    (h : l ∈ texts ⟨Block.squeeze said.purpose, said.notes, Block.squeeze said.remarks⟩) :
    l = [] ∨ l ∈ said.texts := by
  rcases mem_texts.mp h with hl | hl | hl
  · exact (Block.mem_of_mem_squeeze hl).imp id fun hmem => mem_texts.mpr (Or.inl hmem)
  · exact (Block.mem_of_mem_squeeze hl).imp id fun hmem => mem_texts.mpr (Or.inr (Or.inl hmem))
  · exact Or.inr (mem_texts.mpr (Or.inr (Or.inr hl)))

/-- The texts of a description that has been read are parts of the lines of its card. -/
theorem Card.infix_line_of_readAs {t : Text} (h : readAs d t = .ok D) {l : Text}
    (hl : l ∈ D.texts) :
    d.Unmarked l ∧ (l = [] ∨ ∃ line ∈ Text.lines t, l <:+: line) := by
  rw [readAs_eq_gather] at h
  obtain ⟨said, hsaid, h⟩ := bind_eq_ok_iff.mp h
  obtain ⟨rfl, -⟩ := Dialect.conclude_eq_ok_iff.mp h
  rcases Description.mem_texts_squeeze hl with rfl | hl
  · exact ⟨Dialect.unmarked_nil, Or.inl rfl⟩
  · obtain ⟨hunmarked, k, hk, hlk⟩ := (Dialect.found_of_gather hsaid).texts l hl
    obtain ⟨line, hline, hkl⟩ := Dialect.of_mem_stripAll hk
    exact ⟨hunmarked, Or.inr ⟨line.1, Dialect.of_mem_cardLines hline, hlk.trans hkl⟩⟩

/-- The texts of a description that has been read are parts of its card. -/
theorem Card.infix_of_readAs {t : Text} (h : readAs d t = .ok D) {l : Text} (hl : l ∈ D.texts) :
    l <:+: t := by
  rcases (infix_line_of_readAs h hl).2 with rfl | ⟨line, hline, hpart⟩
  · exact List.nil_infix
  · exact hpart.trans (Text.of_mem_lines hline).2

/-- No text of a description that has been read holds a line feed. -/
theorem Card.oneLine_of_readAs {t : Text} (h : readAs d t = .ok D) :
    ∀ l ∈ D.texts, Text.OneLine l := by
  intro l hl
  rcases (infix_line_of_readAs h hl).2 with rfl | ⟨line, hline, hpart⟩
  · decide
  · exact Text.OneLine.of_subset (Text.of_mem_lines hline).1 hpart.subset

/-- A description that has been read is in normal form. -/
theorem Card.normal_of_readAs {t : Text} (h : readAs d t = .ok D) : D.normal = D := by
  rw [readAs_eq_gather] at h
  obtain ⟨said, hsaid, h⟩ := bind_eq_ok_iff.mp h
  obtain ⟨rfl, -⟩ := Dialect.conclude_eq_ok_iff.mp h
  have hnotes : said.notes.map Note.trimmed = said.notes.map id :=
    List.map_congr_left fun n hn => ((Dialect.found_of_gather hsaid).notes n hn).2
  simp [Description.normal, hnotes]

/-- A description that has been read can be written, unless a carriage return is left at the
end of a line in a Fortran card. -/
theorem Card.writable_of_readAs {t : Text} (h : readAs d t = .ok D)
    (hreturn : d = .fortran → ∀ l ∈ D.texts, l.getLast? ≠ some '\r') : D.Writable d := by
  have hread := h
  rw [readAs_eq_gather] at hread
  obtain ⟨said, hsaid, hread⟩ := bind_eq_ok_iff.mp hread
  obtain ⟨hD, hpurpose⟩ := Dialect.conclude_eq_ok_iff.mp hread
  constructor
  · intro l hl
    have hfeed : '\n' ∉ l := oneLine_of_readAs h l hl
    cases d with
    | fortran => exact ⟨hfeed, hreturn rfl l hl⟩
    | f2c => exact hfeed
  · exact fun l hl => (infix_line_of_readAs h hl).1
  · subst hD
    exact fun n hn => ((Dialect.found_of_gather hsaid).notes n hn).1
  · subst hD
    intro hrequired
    rw [← Block.squeeze_ne_nil_iff, Block.squeeze_squeeze]
    exact hpurpose hrequired

/-- Cards and descriptions correspond in both dialects. The card of a writable description is
recognised in its dialect and says the description in normal form. What any card says stands
on it, is in normal form, and, unless a carriage return is left at the end of a line in a
Fortran card, is writable in the dialect of the card and said by the card written of it. -/
theorem Card.round_trip :
    (∀ (d : Dialect) (D : Description), D.Writable d →
      Dialect.ofText (write d D) = d ∧ read (write d D) = .ok D.normal) ∧
    (∀ (t : Text) (D : Description), read t = .ok D →
      (∀ l ∈ D.texts, l <:+: t) ∧ D.normal = D ∧
        ((Dialect.ofText t = .fortran → ∀ l ∈ D.texts, l.getLast? ≠ some '\r') →
          D.Writable (Dialect.ofText t) ∧ read (write (Dialect.ofText t) D) = .ok D)) := by
  constructor
  · intro d D h
    exact ⟨h.ofText_write, h.read_write⟩
  · intro t D h
    have hnormal : D.normal = D := normal_of_readAs h
    refine ⟨fun l hl => infix_of_readAs h hl, hnormal, fun hreturn => ?_⟩
    have hwritable := writable_of_readAs h hreturn
    refine ⟨hwritable, ?_⟩
    rw [hwritable.read_write, hnormal]

/-- A description with blank lines around its texts, and with markers that do not count in wrapped
comments or at their place. -/
def looseDescription : Description where
  purpose :=
    ["".toList, "Solves A*x = b.".toList, " ".toList, "".toList, "See Purpose: above".toList]
  notes := [⟨"N".toList, .input, ["  The order. ".toList, "\t".toList]⟩, ⟨"X_2".toList, .both, []⟩]
  remarks := ["\\verbatim".toList, "".toList]

/-- The lines of a Fortran card with its parts out of order and a text that nothing ends. -/
def looseLines : List Text :=
  ["*> Arguments:".toList, "*> \\param[in] N".toList, "*> \\verbatim".toList,
    "*>  The order. ".toList, "*> \\endverbatim".toList, "*> \\par Purpose:".toList,
    "*> \\verbatim".toList, "*>".toList, "*> Solves A*x = b.".toList, "*>".toList]

/-- What the loose lines say. -/
def tidyDescription : Description where
  purpose := ["Solves A*x = b.".toList]
  notes := [⟨"N".toList, .input, ["The order.".toList]⟩]

/-- The loose description is written in wrapped comments and read back, and what the loose lines
says is read again from the card written of it. -/
theorem Card.round_trip_of_loose :
    (looseDescription.Writable .f2c ∧
      read (write .f2c looseDescription) = .ok looseDescription.normal) ∧
    (read (Text.unlines looseLines) = .ok tidyDescription ∧
      (∀ l ∈ tidyDescription.texts, l.getLast? ≠ some '\r') ∧
        read (write (Dialect.ofText (Text.unlines looseLines)) tidyDescription) =
          .ok tidyDescription) := by
  have hwritable : looseDescription.Writable .f2c := by decide +kernel
  have hlines : Text.lines (Text.unlines looseLines) = looseLines :=
    Text.lines_unlines (by decide +kernel)
  have hread : read (Text.unlines looseLines) = .ok tidyDescription := by
    rw [read, Dialect.ofText, readAs, hlines]
    decide +kernel
  have hreturn : ∀ l ∈ tidyDescription.texts, l.getLast? ≠ some '\r' := by decide +kernel
  exact ⟨⟨hwritable, (Card.round_trip.1 .f2c looseDescription hwritable).2⟩, hread, hreturn,
    ((Card.round_trip.2 (Text.unlines looseLines) tidyDescription hread).2.2 fun _ => hreturn).2⟩

end HeaderCards
