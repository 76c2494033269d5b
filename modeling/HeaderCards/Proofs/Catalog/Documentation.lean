import HeaderCards.Catalog.ForeignBlock
import HeaderCards.Proofs.Binding.Bare
import HeaderCards.Proofs.Card.Written
import HeaderCards.Proofs.Text.Lines

/-!
# Documentation comments

Every line of the documentation of a function is one line, provided that no name of an argument
and no text of a card holds a line feed. So each of them makes one comment line.
-/

namespace HeaderCards

open Text (OneLine)

/-- Escaping breaks no line. -/
theorem Markdown.oneLine_escape {t : Text} (h : OneLine t) : OneLine (escape t) := by
  intro hmem
  obtain ⟨c, hc, hmem⟩ := List.mem_flatMap.mp hmem
  rw [escapeChar] at hmem
  split at hmem
  · rcases List.mem_pair.mp hmem with he | rfl
    · exact absurd he (by decide)
    · exact h hc
  · cases List.mem_singleton.mp hmem
    exact h hc

/-- Dedenting takes characters away. -/
theorem Block.subset_of_mem_dedent {l : Text} {ls : List Text} (h : l ∈ dedent ls) :
    ∃ k ∈ ls, l ⊆ k := by
  obtain ⟨k, hk, rfl⟩ := List.mem_map.mp h
  refine ⟨k, hk, ?_⟩
  rw [cutLine]
  split
  · exact List.nil_subset k
  · exact fun c hc => List.mem_of_mem_drop ((Text.trimEnd_isPrefix _).subset hc)

theorem Block.oneLine_dedent {ls : List Text} (h : ∀ l ∈ ls, OneLine l) :
    ∀ l ∈ dedent ls, OneLine l := by
  intro l hl
  obtain ⟨k, hk, hsub⟩ := subset_of_mem_dedent hl
  exact (h k hk).of_subset hsub

theorem oneLine_withPeriod {l : Text} (h : OneLine l) : OneLine (withPeriod l) := by
  rw [withPeriod]
  split
  · exact h
  · exact h.append (by decide)

theorem oneLine_itemHead {name : Text} (h : OneLine name) : OneLine (itemHead name) :=
  (OneLine.append (by decide) h).append (by decide)

theorem oneLine_itemLine {l : Text} (h : OneLine l) : OneLine (itemLine l) := by
  rw [itemLine]
  split
  · decide
  · exact OneLine.append (by decide) (Markdown.oneLine_escape h)

theorem Direction.oneLine_escape_tag (d : Direction) : OneLine (Markdown.escape d.tag) := by
  cases d <;> decide

/-- What is said of an argument without a note fits on a line. -/
theorem Family.oneLine_fallback (f : Family) (argument : Text) : OneLine (f.fallback argument) := by
  rw [fallback]
  split <;> decide

/-- The item of an argument with a note. -/
theorem Note.oneLine_item {n : Note} {name : Text} (hname : OneLine name)
    (h : ∀ l ∈ n.lines, OneLine l) : ∀ l ∈ n.item name, OneLine l := by
  have hhead : OneLine (itemHead name ++ Markdown.escape n.direction.tag) :=
    (oneLine_itemHead hname).append n.direction.oneLine_escape_tag
  intro l hl
  rw [item] at hl
  cases hlines : n.lines with
  | nil =>
    rw [hlines] at hl
    rw [List.mem_singleton.mp hl]
    exact hhead
  | cons first rest =>
    rw [hlines] at h hl
    rcases List.mem_cons.mp hl with rfl | hl
    · split
      · exact hhead
      · exact (hhead.append (by decide)).append
          (Markdown.oneLine_escape (oneLine_withPeriod (h first (List.mem_cons_self ..))))
    · obtain ⟨k, hk, rfl⟩ := List.mem_map.mp hl
      exact oneLine_itemLine (h k (List.mem_cons_of_mem first hk))

/-- The item of an argument. -/
theorem Pairing.oneLine_item {f : Family} {q : Pairing} (hname : OneLine q.argument.name)
    (h : ∀ n, q.note? = some n → ∀ l ∈ n.lines, OneLine l) : ∀ l ∈ q.item f, OneLine l := by
  rw [item]
  cases hnote : q.note? with
  | some n => exact n.oneLine_item hname (h n hnote)
  | none =>
    intro l hl
    rw [List.mem_singleton.mp hl]
    exact (oneLine_itemHead hname).append (f.oneLine_fallback q.argument.name)

namespace Description

variable {d : Description} (h : ∀ l ∈ d.texts, OneLine l)

include h

theorem oneLine_summary : ∀ l ∈ d.summary, OneLine l := by
  have hpurpose : ∀ l ∈ d.purpose, OneLine l := fun l hl => h l (mem_texts.mpr (Or.inl hl))
  intro l hl
  rw [summary] at hl
  split at hl
  · rw [List.mem_singleton.mp hl]
    decide
  · obtain ⟨k, hk, rfl⟩ := List.mem_map.mp hl
    exact Markdown.oneLine_escape (Block.oneLine_dedent hpurpose k hk)

theorem oneLine_of_mem_notes {n : Note} (hn : n ∈ d.notes) : ∀ l ∈ n.lines, OneLine l :=
  fun l hl => h l (mem_texts.mpr (Or.inr (Or.inr ⟨n, hn, hl⟩)))

theorem oneLine_returns : ∀ l ∈ d.returns, OneLine l := by
  have hheading : ∀ l ∈ ([[], "# Returns", []] : List Text), OneLine l := by decide
  intro l hl
  rw [returns] at hl
  split at hl
  · contradiction
  · next n hn =>
    split at hl
    · contradiction
    · rcases List.mem_append.mp hl with hl | hl
      · exact hheading l hl
      · obtain ⟨k, hk, rfl⟩ := List.mem_map.mp hl
        exact Markdown.oneLine_escape
          (oneLine_of_mem_notes h (List.mem_of_find?_eq_some hn) k (List.mem_of_mem_drop hk))

theorem oneLine_remarksSection : ∀ l ∈ d.remarksSection, OneLine l := by
  have hremarks : ∀ l ∈ d.remarks, OneLine l := fun l hl =>
    h l (mem_texts.mpr (Or.inr (Or.inl hl)))
  have hheading : ∀ l ∈ ([[], "# Remarks", [], "```text"] : List Text), OneLine l := by decide
  intro l hl
  rw [remarksSection] at hl
  split at hl
  · contradiction
  · rcases List.mem_append.mp hl with hl | hl
    · rcases List.mem_append.mp hl with hl | hl
      · exact hheading l hl
      · exact Block.oneLine_dedent hremarks l hl
    · rw [List.mem_singleton.mp hl]
      decide

end Description

namespace Binding

/-- No name of an argument, no line of a note joined to an argument and no text of the
description holds a line feed. -/
structure Unbroken (b : Binding) : Prop where
  names : ∀ a ∈ b.arguments, OneLine a.argument.name
  notes : ∀ a ∈ b.arguments, ∀ n ∈ a.note?, ∀ l ∈ n.lines, OneLine l
  texts : ∀ l ∈ b.description.texts, OneLine l

theorem unbroken_iff {b : Binding} :
    b.Unbroken ↔ (∀ a ∈ b.arguments, OneLine a.argument.name) ∧
      (∀ a ∈ b.arguments, ∀ n ∈ a.note?, ∀ l ∈ n.lines, OneLine l) ∧
      ∀ l ∈ b.description.texts, OneLine l :=
  ⟨fun h => ⟨h.names, h.notes, h.texts⟩, fun h => ⟨h.1, h.2.1, h.2.2⟩⟩

instance (b : Binding) : Decidable b.Unbroken := decidable_of_iff _ unbroken_iff.symm

/-- Every line of the documentation is one line. -/
theorem Unbroken.oneLine_documentation {b : Binding} (h : b.Unbroken) :
    ∀ l ∈ b.documentation, OneLine l := by
  have hheading : ∀ l ∈ ([[], "# Arguments", []] : List Text), OneLine l := by decide
  have hitems : ∀ l ∈ b.arguments.flatMap (Pairing.item b.family ·.toPairing), OneLine l := by
    intro l hl
    obtain ⟨a, ha, hl⟩ := List.mem_flatMap.mp hl
    exact Pairing.oneLine_item (h.names a ha) (h.notes a ha) l hl
  simp only [documentation, documentationHead, List.forall_mem_append]
  exact ⟨⟨⟨⟨Description.oneLine_summary h.texts, hheading⟩, hitems⟩,
    Description.oneLine_returns h.texts⟩, Description.oneLine_remarksSection h.texts⟩

/-- A comment line begins with the marks of a comment. -/
theorem isPrefix_commentLine (l : Text) : ("    ///" : Text) <+: commentLine l := by
  rw [commentLine]
  split
  · exact List.prefix_refl _
  · exact ⟨' ' :: l, rfl⟩

theorem oneLine_commentLine {l : Text} (h : OneLine l) : OneLine (commentLine l) := by
  rw [commentLine]
  split
  · decide
  · exact OneLine.append (by decide) h

end Binding

/-- No name of an argument and no text of the card holds a line feed. -/
structure Entry.Unbroken (e : Entry) : Prop where
  names : ∀ a ∈ e.prototype.arguments, OneLine a.name
  texts : ∀ l ∈ e.description.texts, OneLine l

theorem Entry.unbroken_iff {e : Entry} :
    e.Unbroken ↔ (∀ a ∈ e.prototype.arguments, OneLine a.name) ∧
      ∀ l ∈ e.description.texts, OneLine l :=
  ⟨fun h => ⟨h.names, h.texts⟩, fun h => ⟨h.1, h.2⟩⟩

instance (e : Entry) : Decidable e.Unbroken := decidable_of_iff _ Entry.unbroken_iff.symm

/-- Binding brings no line feed in. -/
theorem Entry.Unbroken.bind {e : Entry} (h : e.Unbroken) {f : Family} {b : Binding}
    (hb : e.bind f = .ok b) : b.Unbroken := by
  obtain ⟨-, -, hdescription, hpairs⟩ := Prototype.of_bind hb
  have hpair : ∀ a ∈ b.arguments, a.toPairing ∈ e.prototype.pair f e.description :=
    fun a ha => hpairs ▸ List.mem_map_of_mem ha
  exact {
    names := fun a ha => h.names _ (Prototype.of_mem_pair (hpair a ha)).1
    notes := fun a ha n hn =>
      Description.oneLine_of_mem_notes h.texts ((Prototype.of_mem_pair (hpair a ha)).2 n hn)
    texts := hdescription ▸ h.texts }

end HeaderCards
