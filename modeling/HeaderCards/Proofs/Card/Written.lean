import HeaderCards.Proofs.Card.Column
import HeaderCards.Proofs.Card.Tag

/-!
# The layout of a written card

A written card consists of the three parts with their headings, provided that no text of the
description is taken for a marker. Each part says what was written into it, but for the
white space around the lines of a note.
-/

namespace HeaderCards

/-- The line holds no marker of the dialect that could end the text in which it stands. In
Fortran sources a marker counts anywhere on the line, elsewhere it fills the line. -/
def Dialect.Unmarked : Dialect → Text → Prop
  | fortran, l =>
    ¬ ("Purpose:" : Text) <:+: l ∧ ¬ ("Arguments:" : Text) <:+: l ∧
      ¬ ("Further Details:" : Text) <:+: l ∧ ¬ ("\\endverbatim" : Text) <:+: l
  | f2c, l =>
    Text.trim l ≠ "\\par Purpose:" ∧ Text.trim l ≠ "Arguments:" ∧
      Text.trim l ≠ "\\par Further Details:" ∧ Text.trim l ≠ "\\endverbatim"

namespace Description

/-- All texts of a description. -/
def texts (D : Description) : List Text := D.purpose ++ D.remarks ++ D.notes.flatMap (·.lines)

/-- A description whose card can be read back: its texts fit into the lines of a card and hold
no markers, its parameters have proper names, and there is a purpose where one is required. -/
structure Writable (d : Dialect) (D : Description) : Prop where
  fits : ∀ l ∈ D.texts, d.Fits l
  unmarked : ∀ l ∈ D.texts, d.Unmarked l
  named : ∀ n ∈ D.notes, n.heading.Named
  purposed : d.requiresPurpose = true → ∃ l ∈ D.purpose, Text.isBlank l = false

theorem writable_iff {d : Dialect} {D : Description} :
    D.Writable d ↔ (∀ l ∈ D.texts, d.Fits l) ∧ (∀ l ∈ D.texts, d.Unmarked l) ∧
      (∀ n ∈ D.notes, n.heading.Named) ∧
        (d.requiresPurpose = true → ∃ l ∈ D.purpose, Text.isBlank l = false) :=
  ⟨fun h => ⟨h.fits, h.unmarked, h.named, h.purposed⟩, fun h => ⟨h.1, h.2.1, h.2.2.1, h.2.2.2⟩⟩

theorem mem_texts {D : Description} {l : Text} :
    l ∈ D.texts ↔ l ∈ D.purpose ∨ l ∈ D.remarks ∨ ∃ n ∈ D.notes, l ∈ n.lines := by
  simp [texts]

end Description

namespace Dialect

variable {d : Dialect}

private theorem heading?_fortran_eq_none_iff {l : Text} :
    fortran.heading? l = none ↔
      ¬ ("Purpose:" : Text) <:+: l ∧ ¬ ("Arguments:" : Text) <:+: l ∧
        ¬ ("Further Details:" : Text) <:+: l := by
  rw [← Text.includes_iff, ← Text.includes_iff, ← Text.includes_iff, heading?]
  generalize Text.includes "Purpose:" l = a
  generalize Text.includes "Arguments:" l = b
  generalize Text.includes "Further Details:" l = c
  cases a <;> cases b <;> cases c <;> simp

private theorem heading?_f2c_eq_none_iff {l : Text} :
    f2c.heading? l = none ↔
      Text.trim l ≠ "\\par Purpose:" ∧ Text.trim l ≠ "Arguments:" ∧
        Text.trim l ≠ "\\par Further Details:" := by
  rw [heading?]
  generalize Text.trim l = t
  split
  · next h => exact ⟨fun hn => by contradiction, fun hn => absurd h hn.1⟩
  · next h₁ =>
    split
    · next h => exact ⟨fun hn => by contradiction, fun hn => absurd h hn.2.1⟩
    · next h₂ =>
      split
      · next h => exact ⟨fun hn => by contradiction, fun hn => absurd h hn.2.2⟩
      · next h₃ => exact ⟨fun _ => ⟨h₁, h₂, h₃⟩, fun _ => rfl⟩

/-- A line without markers is neither a heading nor the end of a block. -/
theorem unmarked_iff {l : Text} : d.Unmarked l ↔ d.isPlain l = true ∧ d.closes l = false := by
  rw [isPlain_iff]
  cases d with
  | fortran =>
    rw [heading?_fortran_eq_none_iff, closes, ← Bool.not_eq_true, Text.includes_iff]
    exact ⟨fun h => ⟨⟨h.1, h.2.1, h.2.2.1⟩, h.2.2.2⟩, fun h => ⟨h.1.1, h.1.2.1, h.1.2.2, h.2⟩⟩
  | f2c =>
    rw [heading?_f2c_eq_none_iff, closes, decide_eq_false_iff_not]
    exact ⟨fun h => ⟨⟨h.1, h.2.1, h.2.2.1⟩, h.2.2.2⟩, fun h => ⟨h.1.1, h.1.2.1, h.1.2.2, h.2⟩⟩

instance (d : Dialect) (l : Text) : Decidable (d.Unmarked l) :=
  decidable_of_iff _ unmarked_iff.symm

instance (d : Dialect) (D : Description) : Decidable (D.Writable d) :=
  decidable_of_iff _ Description.writable_iff.symm

/-- A heading line is read as its heading. -/
@[simp] theorem heading?_line (h : Heading) : d.heading? h.line = some h := by
  cases d <;> cases h <;> decide

/-- Every heading has a colon. -/
theorem isPlain_of_not_mem {l : Text} (h : ':' ∉ l) : d.isPlain l = true := by
  rw [isPlain_iff]
  cases d with
  | fortran =>
    rw [heading?_fortran_eq_none_iff]
    exact ⟨fun hi => h (hi.subset (by decide)), fun hi => h (hi.subset (by decide)),
      fun hi => h (hi.subset (by decide))⟩
  | f2c =>
    have htrim : ':' ∉ Text.trim l := fun hmem => h ((Text.trim_isInfix l).subset hmem)
    rw [heading?_f2c_eq_none_iff]
    refine ⟨fun he => htrim ?_, fun he => htrim ?_, fun he => htrim ?_⟩
    · exact he ▸ (by decide : ':' ∈ "\\par Purpose:".toList)
    · exact he ▸ (by decide : ':' ∈ "Arguments:".toList)
    · exact he ▸ (by decide : ':' ∈ "\\par Further Details:".toList)

theorem opens_blockOpen : d.opens blockOpen = true := by cases d <;> decide

theorem closes_blockClose : d.closes blockClose = true := by cases d <;> decide

/-- A written tag is found as a tag. -/
theorem isTag_write (t : Tag) : d.isTag t.write = true := by
  obtain ⟨name, direction⟩ := t
  have hstart : ("\\param[" : Text) <+: Tag.write ⟨name, direction⟩ := by
    cases direction
    · exact ⟨"in] ".toList ++ name, rfl⟩
    · exact ⟨"out] ".toList ++ name, rfl⟩
    · exact ⟨"in,out] ".toList ++ name, rfl⟩
  cases d with
  | fortran => exact Text.includes_iff.mpr hstart.isInfix
  | f2c =>
    obtain ⟨rest, hrest⟩ := hstart
    have htrim : Text.trimStart (Tag.write ⟨name, direction⟩) = Tag.write ⟨name, direction⟩ := by
      rw [← hrest]
      exact Text.trimStart_cons_of_visible (by decide) _
    rw [isTag, htrim]
    exact Text.startsWith_iff.mpr ⟨rest, hrest⟩

end Dialect

/-- The lines of a part, with its heading in front. -/
def Part.write (p : Part) : List Text := p.heading.line :: p.lines

namespace Dialect

variable {d : Dialect}

/-- Lines without a heading begin no part. -/
private theorem parts_append_of_plain {body : List Text} (hbody : ∀ l ∈ body, d.isPlain l = true)
    (rest : List Text) : d.parts (body ++ rest) = d.parts rest := by
  induction body with
  | nil => rfl
  | cons l body ih =>
    have hl : d.heading? l = none := isPlain_iff.mp (hbody l (List.mem_cons_self ..))
    rw [List.cons_append, parts, hl]
    exact ih fun k hk => hbody k (List.mem_cons_of_mem l hk)

/-- Written parts begin with a heading, so that the part in front of them ends there. -/
private theorem takeWhile_isPlain_append {body : List Text}
    (hbody : ∀ l ∈ body, d.isPlain l = true) (ps : List Part) :
    (body ++ ps.flatMap Part.write).takeWhile d.isPlain = body := by
  rw [List.takeWhile_append_of_pos hbody]
  cases ps with
  | nil => simp
  | cons p ps =>
    have hmarked : ¬ d.isPlain p.heading.line = true := by simp [isPlain]
    rw [List.flatMap_cons, Part.write, List.cons_append, List.takeWhile_cons_of_neg hmarked,
      List.append_nil]

/-- Written parts are cut where they were joined. -/
theorem parts_flatMap_write {ps : List Part} (h : ∀ p ∈ ps, ∀ l ∈ p.lines, d.isPlain l = true) :
    d.parts (ps.flatMap Part.write) = ps := by
  induction ps with
  | nil => rfl
  | cons p ps ih =>
    have hp := h p (List.mem_cons_self ..)
    rw [List.flatMap_cons, Part.write, List.cons_append, parts, heading?_line]
    simp only
    rw [takeWhile_isPlain_append hp, parts_append_of_plain hp,
      ih fun q hq => h q (List.mem_cons_of_mem p hq)]

/-- The text of a topic is captured as it was written. -/
theorem captured_verbatim {ls : List Text} (h : ∀ l ∈ ls, d.closes l = false) :
    d.captured (verbatim ([] :: ls)) = ls := by
  have hblock : d.block (verbatim ([] :: ls)) = [] :: (ls ++ [blockClose]) := by
    rw [block, verbatim, List.dropWhile_cons_of_neg (by simp [opens_blockOpen])]
    rfl
  rw [captured, hblock, textIn, List.dropWhile_cons_of_neg (by simp)]
  simp only [Text.isBlank_nil, ↓reduceIte]
  rw [List.takeWhile_append_of_pos (by simpa using h),
    List.takeWhile_cons_of_neg (by simp [closes_blockClose]), List.append_nil]

end Dialect

/-- The note without the white space around its lines. -/
def Note.trimmed (n : Note) : Note := { n with lines := n.lines.map Text.trim }

/-- Every written note is found again, its lines trimmed. -/
theorem Dialect.noted_flatMap_block {d : Dialect} {ns : List Note}
    (hnamed : ∀ n ∈ ns, n.heading.Named) (hopen : ∀ n ∈ ns, ∀ l ∈ n.lines, d.closes l = false) :
    d.noted (ns.flatMap Note.block) = .ok (ns.map Note.trimmed) := by
  induction ns with
  | nil => exact noted_of_untagged rfl
  | cons n ns ih =>
    have htag : ((n :: ns).flatMap Note.block).dropWhile (!d.isTag ·) =
        n.heading.write :: (verbatim n.lines ++ ns.flatMap Note.block) := by
      rw [List.flatMap_cons, Note.block, List.cons_append,
        List.dropWhile_cons_of_neg (by simp [isTag_write])]
    have hblock : d.block (verbatim n.lines ++ ns.flatMap Note.block) =
        n.lines ++ blockClose :: ns.flatMap Note.block := by
      rw [block, verbatim, List.cons_append,
        List.dropWhile_cons_of_neg (by simp [opens_blockOpen])]
      simp
    have hlines : ∀ l ∈ n.lines, (!d.closes l) = true := by
      simpa using hopen n (List.mem_cons_self ..)
    have hbehind : (n.lines ++ blockClose :: ns.flatMap Note.block).dropWhile (!d.closes ·) =
        blockClose :: ns.flatMap Note.block := by
      rw [List.dropWhile_append_of_pos hlines,
        List.dropWhile_cons_of_neg (by simp [closes_blockClose])]
    have hnote : (n.lines ++ blockClose :: ns.flatMap Note.block).takeWhile (!d.closes ·) =
        n.lines := by
      rw [List.takeWhile_append_of_pos hlines,
        List.takeWhile_cons_of_neg (by simp [closes_blockClose]), List.append_nil]
    rw [noted_of_tagged htag, Tag.read_write (hnamed n (List.mem_cons_self ..)), ok_bind, hblock,
      hbehind, hnote]
    simp only
    rw [ih (fun m hm => hnamed m (List.mem_cons_of_mem n hm))
      fun m hm => hopen m (List.mem_cons_of_mem n hm)]
    rfl

namespace Description

/-- The parts of a written card. -/
def layout (D : Description) : List Part :=
  [⟨.purpose, verbatim ([] :: D.purpose)⟩, ⟨.arguments, D.notes.flatMap Note.block⟩,
    ⟨.furtherDetails, verbatim ([] :: D.remarks)⟩]

theorem block_eq_layout (D : Description) : D.block = D.layout.flatMap Part.write := by
  simp [block, layout, Part.write]

private theorem mem_verbatim {l : Text} {ls : List Text} :
    l ∈ verbatim ls ↔ l ∈ ls ∨ l = blockOpen ∨ l = blockClose := by
  simp only [verbatim, List.mem_cons, List.mem_append, List.not_mem_nil, or_false]
  exact or_left_comm

/-- A line that is written into a part is a text of the description, a tag, empty, or one end
of a block. -/
private theorem mem_layout {D : Description} {p : Part} (hp : p ∈ D.layout) {l : Text}
    (hl : l ∈ p.lines) :
    l ∈ D.texts ∨ (∃ n ∈ D.notes, l = n.heading.write) ∨ l ∈ [[], blockOpen, blockClose] := by
  have htopic : ∀ ls : List Text, (∀ k ∈ ls, k ∈ D.texts) → l ∈ verbatim ([] :: ls) →
      l ∈ D.texts ∨ l ∈ [[], blockOpen, blockClose] := by
    intro ls hls hmem
    rcases mem_verbatim.mp hmem with hmem | hend
    · rcases List.mem_cons.mp hmem with rfl | hmem
      · exact Or.inr (List.mem_cons_self ..)
      · exact Or.inl (hls l hmem)
    · exact Or.inr (List.mem_cons_of_mem _ (List.mem_pair.mpr hend))
  simp only [layout, List.mem_cons, List.not_mem_nil, or_false] at hp
  rcases hp with rfl | rfl | rfl
  · exact (htopic D.purpose (fun k hk => mem_texts.mpr (Or.inl hk)) hl).imp id Or.inr
  · obtain ⟨n, hn, hmem⟩ := List.mem_flatMap.mp hl
    rcases List.mem_cons.mp hmem with htag | hmem
    · exact Or.inr (Or.inl ⟨n, hn, htag⟩)
    · rcases mem_verbatim.mp hmem with hmem | hend
      · exact Or.inl (mem_texts.mpr (Or.inr (Or.inr ⟨n, hn, hmem⟩)))
      · exact Or.inr (Or.inr (List.mem_cons_of_mem _ (List.mem_pair.mpr hend)))
  · exact (htopic D.remarks (fun k hk => mem_texts.mpr (Or.inr (Or.inl hk))) hl).imp id Or.inr

/-- Besides the texts, no line of a part has a colon or a line ending. -/
theorem not_mem_of_mem_layout {D : Description} (hnamed : ∀ n ∈ D.notes, n.heading.Named)
    {p : Part} (hp : p ∈ D.layout) {l : Text} (hl : l ∈ p.lines) :
    l ∈ D.texts ∨ ':' ∉ l ∧ '\n' ∉ l ∧ '\r' ∉ l := by
  rcases mem_layout hp hl with htext | ⟨n, hn, rfl⟩ | hfixed
  · exact Or.inl htext
  · have hnot : ∀ c, Tag.isNameChar c = false → c ∉ ("\\param[in,out] " : Text) →
        c ∉ n.heading.write := fun c => Tag.not_mem_write (hnamed n hn)
    exact Or.inr ⟨hnot ':' (by decide) (by decide), hnot '\n' (by decide) (by decide),
      hnot '\r' (by decide) (by decide)⟩
  · have hall : ∀ k ∈ [[], blockOpen, blockClose], ':' ∉ k ∧ '\n' ∉ k ∧ '\r' ∉ k := by decide
    exact Or.inr (hall l hfixed)

end Description

namespace Description.Writable

variable {d : Dialect} {D : Description}

/-- The parts of a written card hold no headings but their own. -/
theorem isPlain_of_mem_layout (h : D.Writable d) :
    ∀ p ∈ D.layout, ∀ l ∈ p.lines, d.isPlain l = true := by
  intro p hp l hl
  rcases not_mem_of_mem_layout h.named hp hl with htext | ⟨hcolon, -⟩
  · exact (Dialect.unmarked_iff.mp (h.unmarked l htext)).1
  · exact Dialect.isPlain_of_not_mem hcolon

/-- Every line of a written card fits into the comment column. -/
theorem fits_of_mem_block (h : D.Writable d) : ∀ l ∈ D.block, d.Fits l := by
  intro l hl
  rw [block_eq_layout] at hl
  obtain ⟨p, hp, hl⟩ := List.mem_flatMap.mp hl
  rcases List.mem_cons.mp hl with rfl | hl
  · cases p.heading <;> exact Dialect.fits_of_not_mem (by decide) (by decide)
  · rcases not_mem_of_mem_layout h.named hp hl with htext | ⟨-, hfeed, hreturn⟩
    · exact h.fits l htext
    · exact Dialect.fits_of_not_mem hfeed hreturn

/-- The parts of a written card say what the description says, the notes trimmed. -/
theorem mapM_content_block (h : D.Writable d) :
    (d.parts D.block).mapM d.content =
      .ok [Topic.purpose.text D.purpose, { notes := D.notes.map Note.trimmed },
        Topic.remarks.text D.remarks] := by
  have hopen : ∀ l ∈ D.texts, d.closes l = false := fun l hl =>
    (Dialect.unmarked_iff.mp (h.unmarked l hl)).2
  have hpurpose : d.captured (verbatim ([] :: D.purpose)) = D.purpose :=
    Dialect.captured_verbatim fun l hl => hopen l (mem_texts.mpr (Or.inl hl))
  have hremarks : d.captured (verbatim ([] :: D.remarks)) = D.remarks :=
    Dialect.captured_verbatim fun l hl => hopen l (mem_texts.mpr (Or.inr (Or.inl hl)))
  have hnotes : d.noted (D.notes.flatMap Note.block) = .ok (D.notes.map Note.trimmed) :=
    Dialect.noted_flatMap_block h.named fun n hn l hl =>
      hopen l (mem_texts.mpr (Or.inr (Or.inr ⟨n, hn, hl⟩)))
  rw [block_eq_layout, Dialect.parts_flatMap_write h.isPlain_of_mem_layout, mapM_eq_ok_iff]
  simp only [layout, List.map_cons, List.map_nil, Dialect.content, hpurpose, hnotes, hremarks,
    map_ok]

end Description.Writable

end HeaderCards
