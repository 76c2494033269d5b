import HeaderCards.Card.Writer
import HeaderCards.Proofs.Card.Reading
import Mathlib.Data.List.Forall2
import Mathlib.Data.List.Induction

/-!
# Notes and their tags

A note is about the parameter of the tag that the reader had come to when it looked for the
block. From there on only the opening of a block is looked for, so that further tags are passed
over: the tag of a note is the first one behind the arguments heading, or behind the block of
the note before, and it is the last one in front of its block when no other tag stands between
the two. The lines of a card fall into one such block for every note and lines between them.
-/

namespace HeaderCards

variable {d : Dialect}

/-- The lines of a note on a card, with the lines in front of its tag, up to the note before. -/
structure NoteBlock where
  gap : List Text
  tagLine : Text
  /-- The lines between the tag and the block. -/
  passed : List Text
  openLine : Text
  body : List Text
  closeLine : Text

/-- All lines of the block, in order. -/
def NoteBlock.lines (b : NoteBlock) : List Text :=
  b.gap ++ b.tagLine :: (b.passed ++ b.openLine :: (b.body ++ [b.closeLine]))

/-- The tag and the block behind it make up the note. The block is the first one that is opened
behind the tag, and no heading stands between the tag and its end. -/
structure NoteBlock.Tells (d : Dialect) (b : NoteBlock) (n : Note) : Prop where
  isTag : d.isTag b.tagLine = true
  read : Tag.read b.tagLine = .ok n.heading
  unopened : ∀ l ∈ b.passed, d.opens l = false
  opens : d.opens b.openLine = true
  unclosed : ∀ l ∈ b.body, d.closes l = false
  closes : d.closes b.closeLine = true
  lines : n.lines = b.body.map Text.trim
  plain : ∀ l ∈ b.tagLine :: (b.passed ++ b.openLine :: (b.body ++ [b.closeLine])),
    d.isPlain l = true

/-- A tag is looked for behind the lines, and none has been found yet: since the arguments
heading or, behind another note, since its end there have been no heading and no tag. -/
def Dialect.Seeks (d : Dialect) (behindNote : Prop) (gap : List Text) : Prop :=
  ∃ front idle, gap = front ++ idle ∧
    (front = [] ∧ behindNote ∨ ∃ l, front.getLast? = some l ∧ d.heading? l = some .arguments) ∧
    ∀ l ∈ idle, d.isPlain l = true ∧ d.isTag l = false

namespace Dialect.Seeks

variable {behindNote : Prop} {gap : List Text} {l : Text}

theorem of_heading (h : d.heading? l = some .arguments) (ls : List Text) :
    d.Seeks behindNote (ls ++ [l]) :=
  ⟨ls ++ [l], [], by simp, .inr ⟨l, by simp, h⟩, by simp⟩

theorem of_behindNote (h : behindNote) : d.Seeks behindNote [] :=
  ⟨[], [], rfl, .inl ⟨rfl, h⟩, by simp⟩

theorem snoc (h : d.Seeks behindNote gap) (hplain : d.isPlain l = true) (htag : d.isTag l = false) :
    d.Seeks behindNote (gap ++ [l]) := by
  obtain ⟨front, idle, rfl, hfront, hidle⟩ := h
  refine ⟨front, idle ++ [l], by simp, hfront, fun k hk => ?_⟩
  rcases List.mem_append.mp hk with hk | hk
  · exact hidle k hk
  · rw [List.mem_singleton.mp hk]
    exact ⟨hplain, htag⟩

end Dialect.Seeks

/-- In front of every block a tag is looked for. -/
def Dialect.Sought (d : Dialect) (bs : List NoteBlock) : Prop :=
  ∀ before b after, bs = before ++ b :: after → d.Seeks (before ≠ []) b.gap

theorem Dialect.Sought.snoc {bs : List NoteBlock} {b : NoteBlock} (h : d.Sought bs)
    (hb : d.Seeks (bs ≠ []) b.gap) : d.Sought (bs ++ [b]) := by
  intro before c after heq
  rcases List.eq_nil_or_concat after with rfl | ⟨after, x, rfl⟩
  · obtain ⟨rfl, hc⟩ := List.append_inj' heq rfl
    cases hc
    exact hb
  · rw [List.concat_eq_append, ← List.cons_append, ← List.append_assoc] at heq
    exact h before c after (List.append_inj' heq rfl).1

/-- What the lines behind the last note are like while the reader is in a mode. -/
def Mode.Fits (d : Dialect) (behindNote : Prop) (rest : List Text) : Mode → Prop
  | .seekingTag => d.Seeks behindNote rest
  | .seekingNote tag => ∃ gap tagLine passed, rest = gap ++ tagLine :: passed ∧
      d.Seeks behindNote gap ∧ d.isTag tagLine = true ∧ Tag.read tagLine = .ok tag ∧
      (∀ l ∈ passed, d.opens l = false) ∧ ∀ l ∈ tagLine :: passed, d.isPlain l = true
  | .inNote tag lines => ∃ gap tagLine passed openLine body,
      rest = gap ++ tagLine :: (passed ++ openLine :: body) ∧
      d.Seeks behindNote gap ∧ d.isTag tagLine = true ∧ Tag.read tagLine = .ok tag ∧
      (∀ l ∈ passed, d.opens l = false) ∧ d.opens openLine = true ∧
      (∀ l ∈ body, d.closes l = false) ∧ lines.reverse = body.map Text.trim ∧
      ∀ l ∈ tagLine :: (passed ++ openLine :: body), d.isPlain l = true
  | _ => True

namespace Reader

/-- The lines read so far fall into one block for every note that has been found, and lines that
fit the mode. -/
structure Attributed (d : Dialect) (ls : List Text) (r : Reader) (bs : List NoteBlock)
    (rest : List Text) : Prop where
  lines : ls = bs.flatMap NoteBlock.lines ++ rest
  notes : List.Forall₂ (NoteBlock.Tells d) bs r.notes.reverse
  sought : d.Sought bs
  fits : r.mode.Fits d (bs ≠ []) rest

theorem Attributed.empty : Attributed d [] {} [] [] where
  lines := rfl
  notes := .nil
  sought := by simp [Dialect.Sought]
  fits := trivial

variable {ls rest : List Text} {l : Text} {r s : Reader} {bs : List NoteBlock}

/-- A line that finishes no note leaves the blocks as they are. -/
theorem Attributed.extend (h : Attributed d ls r bs rest) (hnotes : s.notes = r.notes)
    (hfits : s.mode.Fits d (bs ≠ []) (rest ++ [l])) :
    Attributed d (ls ++ [l]) s bs (rest ++ [l]) where
  lines := by rw [h.lines, List.append_assoc]
  notes := hnotes ▸ h.notes
  sought := h.sought
  fits := hfits

/-- Outside of the arguments no note is found, and any lines fit. -/
theorem fits_of_step_topic {topic : Topic}
    (hr : r.mode = .outside ∨ r.mode = .seekingBlock topic ∨ r.mode = .seekingText topic ∨
      r.mode = .inText topic) (hs : stepInside d r l = .ok s) :
    s.notes = r.notes ∧ ∀ behindNote rest, s.mode.Fits d behindNote rest := by
  rcases hr with hr | hr | hr | hr <;>
    (simp only [stepInside, hr, Except.ok.injEq] at hs; subst hs)
  · simp [hr, Mode.Fits]
  · split <;> simp [hr, Mode.Fits]
  · split
    · simp [Mode.Fits]
    · split <;> simp [hr, Mode.Fits]
  · split
    · simp [Mode.Fits]
    · cases topic <;> simp [hr, capture, Mode.Fits]

section Inside

variable (h : Attributed d ls r bs rest) (hplain : d.isPlain l = true)
  (hs : stepInside d r l = .ok s)

include h hplain hs

/-- A tag is read where one is looked for, and other lines are passed over. -/
theorem attributed_of_seekingTag (hr : r.mode = .seekingTag) :
    ∃ bs rest, Attributed d (ls ++ [l]) s bs rest := by
  have hseeks : d.Seeks (bs ≠ []) rest := by simpa [hr, Mode.Fits] using h.fits
  simp only [stepInside, hr] at hs
  cases ht : d.isTag l with
  | true =>
    rw [ht, if_pos rfl] at hs
    obtain ⟨tag, htag, rfl⟩ := map_eq_ok_iff.mp hs
    exact ⟨bs, rest ++ [l], h.extend rfl
      ⟨rest, l, [], rfl, hseeks, ht, htag, by simp, by simpa using hplain⟩⟩
  | false =>
    rw [ht, if_neg Bool.false_ne_true] at hs
    cases hs
    refine ⟨bs, rest ++ [l], h.extend rfl ?_⟩
    rw [hr]
    exact hseeks.snoc hplain ht

/-- Behind a tag all lines are passed over, tags as well, until a block is opened. -/
theorem attributed_of_seekingNote {tag : Tag} (hr : r.mode = .seekingNote tag) :
    ∃ bs rest, Attributed d (ls ++ [l]) s bs rest := by
  have hfits := h.fits
  rw [hr] at hfits
  obtain ⟨gap, tagLine, passed, rfl, hseeks, ht, htag, hpassed, hlines⟩ := hfits
  have hlines' : ∀ k ∈ tagLine :: (passed ++ [l]), d.isPlain k = true :=
    List.forall_mem_append.mpr ⟨hlines, by simpa using hplain⟩
  simp only [stepInside, hr, Except.ok.injEq] at hs
  subst hs
  refine ⟨bs, _, h.extend (by split <;> rfl) ?_⟩
  cases ho : d.opens l with
  | true =>
    exact ⟨gap, tagLine, passed, l, [], by simp, hseeks, ht, htag, hpassed, ho, by simp, rfl,
      hlines'⟩
  | false =>
    have hpassed' : ∀ k ∈ passed ++ [l], d.opens k = false :=
      List.forall_mem_append.mpr ⟨hpassed, by simpa using ho⟩
    rw [if_neg Bool.false_ne_true, hr]
    exact ⟨gap, tagLine, passed ++ [l], by simp, hseeks, ht, htag, hpassed', hlines'⟩

/-- The closing line of a block finishes its note. -/
theorem attributed_of_inNote {tag : Tag} {lines : List Text} (hr : r.mode = .inNote tag lines) :
    ∃ bs rest, Attributed d (ls ++ [l]) s bs rest := by
  have hfits := h.fits
  rw [hr] at hfits
  obtain ⟨gap, tagLine, passed, openLine, body, rfl, hseeks, ht, htag, hpassed, ho, hbody,
    hcollected, hlines⟩ := hfits
  have hlines' : ∀ k ∈ tagLine :: (passed ++ openLine :: body) ++ [l], d.isPlain k = true :=
    List.forall_mem_append.mpr ⟨hlines, by simpa using hplain⟩
  simp only [stepInside, hr, Except.ok.injEq] at hs
  subst hs
  cases hc : d.closes l with
  | true =>
    have htells : NoteBlock.Tells d ⟨gap, tagLine, passed, openLine, body, l⟩
        (tag.note lines.reverse) :=
      ⟨ht, htag, hpassed, ho, hbody, hc, hcollected, by simpa using hlines'⟩
    refine ⟨bs ++ [⟨gap, tagLine, passed, openLine, body, l⟩], [], ?_, ?_, h.sought.snoc hseeks,
      .of_behindNote (by simp)⟩
    · rw [h.lines]
      simp [NoteBlock.lines]
    · rw [if_pos rfl, List.reverse_cons]
      exact List.rel_append h.notes (.cons htells .nil)
  | false =>
    have hbody' : ∀ k ∈ body ++ [l], d.closes k = false :=
      List.forall_mem_append.mpr ⟨hbody, by simpa using hc⟩
    exact ⟨bs, _, h.extend rfl ⟨gap, tagLine, passed, openLine, body ++ [l], by simp, hseeks, ht,
      htag, hpassed, ho, hbody', by simp [hcollected], by simpa using hlines'⟩⟩

end Inside

/-- One step keeps the notes with their blocks. -/
theorem Attributed.step (h : Attributed d ls r bs rest) (hs : Reader.step d r l = .ok s) :
    ∃ bs rest, Attributed d (ls ++ [l]) s bs rest := by
  cases hheading : d.heading? l with
  | some heading =>
    rw [Reader.step, hheading] at hs
    cases hs
    refine ⟨bs, rest ++ [l], h.extend rfl ?_⟩
    cases heading with
    | arguments => exact .of_heading hheading rest
    | purpose => trivial
    | furtherDetails => trivial
  | none =>
    have hplain : d.isPlain l = true := Dialect.isPlain_iff.mpr hheading
    rw [step_of_plain hplain] at hs
    have htopic (topic : Topic) (hr : r.mode = .outside ∨ r.mode = .seekingBlock topic ∨
        r.mode = .seekingText topic ∨ r.mode = .inText topic) :
        ∃ bs rest, Attributed d (ls ++ [l]) s bs rest := by
      obtain ⟨hnotes, hfits⟩ := fits_of_step_topic hr hs
      exact ⟨bs, rest ++ [l], h.extend hnotes (hfits _ _)⟩
    cases hr : r.mode with
    | outside => exact htopic .purpose (.inl hr)
    | seekingBlock topic => exact htopic topic (.inr (.inl hr))
    | seekingText topic => exact htopic topic (.inr (.inr (.inl hr)))
    | inText topic => exact htopic topic (.inr (.inr (.inr hr)))
    | seekingTag => exact attributed_of_seekingTag h hplain hs hr
    | seekingNote tag => exact attributed_of_seekingNote h hplain hs hr
    | inNote tag lines => exact attributed_of_inNote h hplain hs hr

/-- Whatever lines the reader has read, they fall into blocks of the notes it has found. -/
theorem exists_attributed (h : ls.foldlM (Reader.step d) {} = .ok r) :
    ∃ bs rest, Attributed d ls r bs rest := by
  induction ls using List.reverseRecOn generalizing r with
  | nil =>
    cases h
    exact ⟨[], [], .empty⟩
  | append_singleton ls l ih =>
    rw [List.foldlM_append] at h
    obtain ⟨s, hs, hl⟩ := bind_eq_ok_iff.mp h
    obtain ⟨bs, rest, hattributed⟩ := ih hs
    rw [List.foldlM_cons] at hl
    obtain ⟨r', hstep, hr⟩ := bind_eq_ok_iff.mp hl
    cases hr
    exact hattributed.step hstep

/-- What the reader ends with has the notes that it has found. -/
theorem notes_of_finish {D : Description} (h : finish d r = .ok D) : D.notes = r.notes.reverse := by
  rw [finish] at h
  split at h
  · contradiction
  · cases h
    rfl

end Reader

/-- Every block tells one of the notes. -/
theorem NoteBlock.exists_tells {bs : List NoteBlock} {ns : List Note}
    (h : List.Forall₂ (NoteBlock.Tells d) bs ns) {b : NoteBlock} (hb : b ∈ bs) :
    ∃ n, b.Tells d n := by
  obtain ⟨n, -, htells⟩ := exists_right_of_forall₂ h hb
  exact ⟨n, htells⟩

/-- A block in front of whose opening only one tag stands has that tag as the last one in front of
it. -/
theorem NoteBlock.Tells.getLast?_tags {b : NoteBlock} {n : Note} (h : b.Tells d n)
    (hpassed : ∀ l ∈ b.passed, d.isTag l = false) (front : List Text) :
    ((front ++ b.tagLine :: b.passed).filter d.isTag).getLast? = some b.tagLine := by
  have hnone : b.passed.filter d.isTag = [] := by simpa using hpassed
  rw [List.filter_append, List.filter_cons_of_pos h.isTag, hnone, List.getLast?_concat]

/-- The lines of a card that can be read fall into one block for each of its notes, in order, and
lines behind the last block. The name and the direction of a note are those of the tag of its
block, which is the first tag behind the arguments heading or behind the note before, and its
lines are those of the first block opened from there on. When no other tag stands between that
tag and the block, it is the last tag in front of the block. -/
theorem Card.notes_by_first_tags {t : Text} {D : Description} (h : readAs d t = .ok D) :
    ∃ ls bs rest, d.stripAll (d.cardLines (Text.lines t)) = (ls, none) ∧
      ls = bs.flatMap NoteBlock.lines ++ rest ∧
      List.Forall₂ (NoteBlock.Tells d) bs D.notes ∧
      ∀ before b after, bs = before ++ b :: after →
        d.Seeks (before ≠ []) b.gap ∧
        ((∀ l ∈ b.passed, d.isTag l = false) →
          ((before.flatMap NoteBlock.lines ++ b.gap ++ b.tagLine :: b.passed).filter
            d.isTag).getLast? = some b.tagLine) := by
  rw [readAs, Reader.foldlM_stepLine, bind_assoc] at h
  obtain ⟨r, hr, h⟩ := bind_eq_ok_iff.mp h
  obtain ⟨s, hs, hfinish⟩ := bind_eq_ok_iff.mp h
  obtain ⟨bs, rest, hattributed⟩ := Reader.exists_attributed hr
  cases hstrip : (d.stripAll (d.cardLines (Text.lines t))).2 with
  | some e => simp [hstrip] at hs
  | none =>
    simp only [hstrip, Except.ok.injEq] at hs
    subst hs
    have hnotes := hattributed.notes
    rw [← Reader.notes_of_finish hfinish] at hnotes
    refine ⟨_, bs, rest, Prod.ext rfl hstrip, hattributed.lines, hnotes, ?_⟩
    intro before b after hbs
    refine ⟨hattributed.sought before b after hbs, fun hpassed => ?_⟩
    obtain ⟨n, htells⟩ := NoteBlock.exists_tells hnotes (hbs ▸ List.mem_append_right before
      (List.mem_cons_self ..))
    exact htells.getLast?_tags hpassed _

/-- The lines of a card with three tags, of which the second has no block of its own. -/
def taggedLines : List Text :=
  ["Arguments:".toList, "\\param[in] N".toList, "\\verbatim".toList, "  The order.".toList,
    "\\endverbatim".toList, "\\param[in] LDA".toList, "\\param[out] X".toList, "\\verbatim".toList,
    "  The solution.".toList, "\\endverbatim".toList]

/-- The card with these lines. -/
def taggedCard : Text := Text.unlines (taggedLines.map Dialect.fortran.column)

/-- The lines of the card fall into the blocks of two notes. -/
theorem Card.notes_of_taggedCard :
    readAs .fortran taggedCard =
      .ok ⟨[], [⟨"N", .input, ["The order."]⟩, ⟨"LDA", .input, ["The solution."]⟩], []⟩ ∧
    ∃ bs rest, taggedLines = bs.flatMap NoteBlock.lines ++ rest ∧
      List.Forall₂ (NoteBlock.Tells .fortran) bs
        [⟨"N", .input, ["The order."]⟩, ⟨"LDA", .input, ["The solution."]⟩] := by
  have hread : readAs .fortran taggedCard =
      .ok ⟨[], [⟨"N", .input, ["The order."]⟩, ⟨"LDA", .input, ["The solution."]⟩], []⟩ := by
    decide +kernel
  have hstrip : Dialect.fortran.stripAll (Dialect.fortran.cardLines (Text.lines taggedCard)) =
      (taggedLines, none) := by
    decide +kernel
  obtain ⟨ls, bs, rest, hls, hlines, hnotes, -⟩ := notes_by_first_tags hread
  cases hstrip.symm.trans hls
  exact ⟨hread, bs, rest, hlines, hnotes⟩

/-- The last tag in front of a block need not be the one its text is attributed to: the last block
of the card stands behind the tag of `X`, but its text is the note on `LDA`, whose block was being
looked for. -/
theorem Card.note_behind_passed_tag :
    readAs .fortran taggedCard =
      .ok ⟨[], [⟨"N", .input, ["The order."]⟩, ⟨"LDA", .input, ["The solution."]⟩], []⟩ ∧
    Dialect.fortran.stripAll (Dialect.fortran.cardLines (Text.lines taggedCard)) =
      (taggedLines, none) ∧
    taggedLines.drop 7 = ["\\verbatim".toList, "  The solution.".toList, "\\endverbatim".toList] ∧
    ((taggedLines.take 7).filter Dialect.fortran.isTag).getLast? = some "\\param[out] X".toList ∧
    Tag.read "\\param[out] X" = .ok ⟨"X", .output⟩ := by
  decide +kernel

end HeaderCards
