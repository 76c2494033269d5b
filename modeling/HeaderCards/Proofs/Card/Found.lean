import HeaderCards.Proofs.Card.Written
import HeaderCards.Proofs.Text.Block

/-!
# What a card can say

Whatever the card, each text that is read from it stands on one of its lines and holds no
marker, the lines of the notes are trimmed, and the parameters have proper names. So what
has been read from a card can be written as a card again.
-/

namespace HeaderCards

/-- The description was read from these lines: its texts stand on them and hold no markers, and
its notes are about named parameters and trimmed. -/
structure Description.Found (d : Dialect) (ls : List Text) (D : Description) : Prop where
  texts : ∀ l ∈ D.texts, d.Unmarked l ∧ ∃ k ∈ ls, l <:+: k
  notes : ∀ n ∈ D.notes, n.heading.Named ∧ n.trimmed = n

variable {d : Dialect}

/-- Markers are not made by trimming. -/
theorem Dialect.Unmarked.trim {l : Text} (h : d.Unmarked l) : d.Unmarked (Text.trim l) := by
  cases d with
  | fortran =>
    have hpart : ∀ m : Text, ¬ m <:+: l → ¬ m <:+: Text.trim l := fun m hm hi =>
      hm (hi.trans (Text.trim_isInfix l))
    exact ⟨hpart _ h.1, hpart _ h.2.1, hpart _ h.2.2.1, hpart _ h.2.2.2⟩
  | f2c =>
    rw [Dialect.Unmarked, Text.trim_trim]
    exact h

theorem Dialect.unmarked_nil : d.Unmarked [] := by
  rw [unmarked_iff]
  cases d <;> exact ⟨by decide, by decide⟩

namespace Description.Found

variable {ls : List Text} {D E : Description}

theorem empty : Found d ls ∅ := ⟨by simp [Description.texts, EmptyCollection.emptyCollection],
  by simp [EmptyCollection.emptyCollection]⟩

/-- What is said first and next is found when both are. -/
theorem append (hD : D.Found d ls) (hE : E.Found d ls) : (D ++ E).Found d ls := by
  constructor
  · intro l hl
    have hmem : l ∈ D.texts ∨ l ∈ E.texts := by
      simp only [append_def, mem_texts, List.mem_append] at hl ⊢
      grind
    exact hmem.elim (hD.texts l) (hE.texts l)
  · intro n hn
    exact (List.mem_append.mp hn).elim (hD.notes n) (hE.notes n)

/-- What is said together is found when every description is. -/
theorem join {Ds : List Description} (h : ∀ D ∈ Ds, D.Found d ls) :
    (Description.join Ds).Found d ls := by
  induction Ds with
  | nil => exact empty
  | cons D Ds ih =>
    rw [join_cons]
    exact append (h D (List.mem_cons_self ..)) (ih fun E hE => h E (List.mem_cons_of_mem D hE))

/-- The text of a topic is found when it stands on the lines without markers. -/
theorem topic {topic : Topic} {text : List Text} (h : ∀ l ∈ text, d.Unmarked l ∧ l ∈ ls) :
    (topic.text text).Found d ls := by
  have htext : ∀ l ∈ (topic.text text).texts, l ∈ text := by
    cases topic <;> simp [Description.texts, Topic.text]
  refine ⟨fun l hl => ?_, by cases topic <;> simp [Topic.text]⟩
  obtain ⟨hl, hmem⟩ := h l (htext l hl)
  exact ⟨hl, l, hmem, List.infix_rfl⟩

end Description.Found

namespace Dialect

/-- The lines of a part are lines of the card and no headings. -/
theorem of_mem_parts {ls : List Text} {p : Part} (h : p ∈ d.parts ls) :
    ∀ l ∈ p.lines, d.isPlain l = true ∧ l ∈ ls := by
  induction ls with
  | nil => simp [parts] at h
  | cons k ls ih =>
    have hrest : p ∈ d.parts ls → ∀ l ∈ p.lines, d.isPlain l = true ∧ l ∈ k :: ls :=
      fun hp l hl => (ih hp l hl).imp id (List.mem_cons_of_mem k)
    rw [parts] at h
    cases hk : d.heading? k with
    | none =>
      rw [hk] at h
      exact hrest h
    | some heading =>
      rw [hk] at h
      rcases List.mem_cons.mp h with rfl | h
      · intro l hl
        exact ⟨List.all_eq_true.mp List.all_takeWhile l hl,
          List.mem_cons_of_mem k ((List.takeWhile_prefix _).subset hl)⟩
      · exact hrest h

theorem block_sublist (ls : List Text) : (d.block ls).Sublist ls :=
  (List.tail_sublist _).trans (List.dropWhile_sublist _)

/-- Captured lines are lines of the part, and none of them closes the block. -/
theorem of_mem_captured {ls : List Text} {l : Text} (h : l ∈ d.captured ls) :
    d.closes l = false ∧ l ∈ ls := by
  rw [captured, textIn] at h
  split at h
  · contradiction
  · next k rest hk =>
    have hsub : (k :: rest).Sublist ls :=
      (hk ▸ List.dropWhile_sublist _).trans (block_sublist ls)
    split at h
    · have hclosed := List.all_eq_true.mp List.all_takeWhile l h
      exact ⟨by simpa using hclosed,
        hsub.subset (List.mem_cons_of_mem k ((List.takeWhile_prefix _).subset h))⟩
    · contradiction

/-- The notes of a part are named and trimmed, and the lines in them are lines of the part that
do not close a block. -/
theorem of_noted {ls : List Text} {ns : List Note} (h : d.noted ls = .ok ns) :
    ∀ n ∈ ns, n.heading.Named ∧ n.trimmed = n ∧
      ∀ l ∈ n.lines, ∃ k ∈ ls, d.closes k = false ∧ l = Text.trim k := by
  induction ls using noted.induct d generalizing ns with
  | case1 ls ht =>
    rw [noted_of_untagged ht] at h
    cases h
    simp
  | case2 ls tagLine behind ht ih =>
    have hbehind : behind.Sublist ls :=
      (List.sublist_cons_self tagLine behind).trans (ht ▸ List.dropWhile_sublist _)
    rw [noted_of_tagged ht] at h
    obtain ⟨tag, htag, h⟩ := bind_eq_ok_iff.mp h
    cases hc : (d.block behind).dropWhile (!d.closes ·) with
    | nil =>
      rw [hc] at h
      cases h
      simp
    | cons last rest =>
      have hrest : rest.Sublist ls :=
        (((List.sublist_cons_self last rest).trans (hc ▸ List.dropWhile_sublist _)).trans
          (block_sublist behind)).trans hbehind
      rw [hc] at h
      obtain ⟨ms, hms, rfl⟩ := map_eq_ok_iff.mp h
      intro n hn
      rcases List.mem_cons.mp hn with rfl | hn
      · refine ⟨Tag.named_of_read htag, by simp [Note.trimmed, Tag.note], fun l hl => ?_⟩
        obtain ⟨k, hk, rfl⟩ := List.mem_map.mp hl
        have hopen := List.all_eq_true.mp List.all_takeWhile k hk
        exact ⟨k, (((List.takeWhile_prefix _).sublist.trans (block_sublist behind)).trans
          hbehind).subset hk, by simpa using hopen, rfl⟩
      · obtain ⟨hnamed, htrimmed, hlines⟩ := ih last rest hc hms n hn
        refine ⟨hnamed, htrimmed, fun l hl => ?_⟩
        obtain ⟨k, hk, hopen, he⟩ := hlines l hl
        exact ⟨k, hrest.subset hk, hopen, he⟩

/-- What a part of a card says is found on the lines of the card. -/
theorem found_of_content {ls : List Text} {p : Part} (hp : p ∈ d.parts ls) {D : Description}
    (h : d.content p = .ok D) : D.Found d ls := by
  have hlines := of_mem_parts hp
  have htopic : ∀ l ∈ d.captured p.lines, d.Unmarked l ∧ l ∈ ls := by
    intro l hl
    obtain ⟨hopen, hmem⟩ := of_mem_captured hl
    obtain ⟨hplain, hmem⟩ := hlines l hmem
    exact ⟨unmarked_iff.mpr ⟨hplain, hopen⟩, hmem⟩
  rw [content] at h
  cases hheading : p.heading with
  | purpose =>
    rw [hheading] at h
    cases h
    exact .topic htopic
  | furtherDetails =>
    rw [hheading] at h
    cases h
    exact .topic htopic
  | arguments =>
    rw [hheading] at h
    obtain ⟨ns, hns, rfl⟩ := map_eq_ok_iff.mp h
    have hnoted := of_noted hns
    refine ⟨fun l hl => ?_, fun n hn => ⟨(hnoted n hn).1, (hnoted n hn).2.1⟩⟩
    obtain ⟨n, hn, hl⟩ : ∃ n ∈ ns, l ∈ n.lines := by
      simpa [Description.texts] using hl
    obtain ⟨k, hk, hopen, rfl⟩ := (hnoted n hn).2.2 l hl
    obtain ⟨hplain, hmem⟩ := hlines k hk
    exact ⟨(unmarked_iff.mpr ⟨hplain, hopen⟩).trim, k, hmem, Text.trim_isInfix k⟩

/-- Stripping takes a part of the line. -/
theorem strip_isInfix {number : Nat} {line l : Text} (h : d.strip number line = .ok l) :
    l <:+: line := by
  cases d with
  | fortran =>
    cases h
    exact (List.drop_suffix 3 line).isInfix
  | f2c =>
    obtain ⟨c, hshape, rfl⟩ := strip_f2c_eq_ok_iff.mp h
    exact hshape.text_isInfix.trans (Text.trimEnd_isPrefix line).isInfix

/-- A stripped line is a part of one line of the text. -/
theorem of_mem_stripAll {ls : List (Text × Nat)} {l : Text} (h : l ∈ (d.stripAll ls).1) :
    ∃ line ∈ ls, l <:+: line.1 := by
  induction ls with
  | nil => simp [stripAll] at h
  | cons line ls ih =>
    obtain ⟨text, number⟩ := line
    cases hs : d.strip number text with
    | error e => simp [stripAll, hs] at h
    | ok k =>
      simp only [stripAll, hs, List.mem_cons] at h
      rcases h with rfl | h
      · exact ⟨(text, number), List.mem_cons_self .., strip_isInfix hs⟩
      · obtain ⟨line, hline, hl⟩ := ih h
        exact ⟨line, List.mem_cons_of_mem _ hline, hl⟩

/-- The lines of a card are lines of its text. -/
theorem of_mem_cardLines {ls : List Text} {line : Text × Nat} (h : line ∈ d.cardLines ls) :
    line.1 ∈ ls := by
  have hmem : line ∈ ls.zipIdx 1 := List.mem_of_mem_take (List.mem_of_mem_drop h)
  exact List.fst_mem_of_mem_zipIdx hmem

/-- What is gathered from the lines of a text is found on them. -/
theorem found_of_gather {ls : List (Text × Nat)} {D : Description} (h : d.gather ls = .ok D) :
    D.Found d (d.stripAll ls).1 := by
  obtain ⟨Ds, hDs, h⟩ := bind_eq_ok_iff.mp h
  split at h
  · cases h
    refine .join fun E hE => ?_
    obtain ⟨p, hp, hcontent⟩ := exists_of_mem_mapM hDs hE
    exact found_of_content hp hcontent
  · contradiction

end Dialect

end HeaderCards
