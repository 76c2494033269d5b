import HeaderCards.Text
import Mathlib.Data.List.TakeWhile

/-!
# Pieces of a text

A text that is cut at some of its characters falls into pieces, each of which is a part of it
and holds none of these characters.
-/

namespace HeaderCards.Text

variable {p : Char → Bool}

/-- A text is cut at the first character of a kind in one way only. -/
theorem eq_of_append_cons_eq {c : Char} {a a' b b' : Text} (ha : c ∉ a) (ha' : c ∉ a')
    (h : a ++ c :: b = a' ++ c :: b') : a = a' ∧ b = b' := by
  have hfront : ∀ {a : Text} (b), c ∉ a → (a ++ c :: b).takeWhile (· ≠ c) = a := by
    intro a b ha
    rw [List.takeWhile_append_of_pos, List.takeWhile_cons_of_neg (by simp), List.append_nil]
    intro x hx
    simpa using fun he : x = c => ha (he ▸ hx)
  have heq : a = a' := by rw [← hfront b ha, h, hfront b' ha']
  subst heq
  exact ⟨rfl, (List.cons.inj (List.append_cancel_left h)).2⟩

/-- Elements of a kind in front of one that is not of it are the longest front of that kind. -/
theorem span_append {α : Type} {p : α → Bool} {a b : List α} (ha : ∀ x ∈ a, p x = true)
    (hb : ∀ x ∈ b.head?, p x = false) :
    (a ++ b).takeWhile p = a ∧ (a ++ b).dropWhile p = b := by
  rw [List.takeWhile_append_of_pos ha, List.dropWhile_append_of_pos ha]
  cases b with
  | nil => simp
  | cons x b =>
    have hx : ¬ p x = true := by simpa using hb x rfl
    rw [List.takeWhile_cons_of_neg hx, List.dropWhile_cons_of_neg hx, List.append_nil]
    exact ⟨rfl, rfl⟩

theorem beforeLast?_of_not_mem {c : Char} {t : Text} (h : c ∉ t) : beforeLast? c t = none := by
  have hdrop : t.reverse.dropWhile (· ≠ c) = [] := by
    refine List.dropWhile_eq_nil_iff.mpr fun x hx => ?_
    simpa using fun he : x = c => h (List.mem_reverse.mp (he ▸ hx))
  simp only [beforeLast?, hdrop]

theorem beforeLast?_append {c : Char} {b : Text} (hb : c ∉ b) (a : Text) :
    beforeLast? c (a ++ c :: b) = some a := by
  have hback : ∀ x ∈ b.reverse, decide (x ≠ c) = true := by
    intro x hx
    simpa using fun he : x = c => hb (List.mem_reverse.mp (he ▸ hx))
  have hdrop : (a ++ c :: b).reverse.dropWhile (· ≠ c) = c :: a.reverse := by
    rw [List.reverse_append, List.reverse_cons, List.append_assoc, List.singleton_append]
    exact (span_append hback (by simp)).2
  simp only [beforeLast?, hdrop, List.reverse_reverse]

/-- What follows the last occurrence does not matter. -/
theorem beforeLast?_append_of_not_mem {c : Char} {b : Text} (hb : c ∉ b) (a : Text) :
    beforeLast? c (a ++ b) = beforeLast? c a := by
  have hback : ∀ x ∈ b.reverse, decide (x ≠ c) = true := by
    intro x hx
    simpa using fun he : x = c => hb (List.mem_reverse.mp (he ▸ hx))
  rw [beforeLast?, beforeLast?, List.reverse_append, List.dropWhile_append_of_pos hback]

/-- A character that a text holds has a last occurrence. -/
theorem eq_append_cons_of_mem_last {c : Char} {t : Text} (h : c ∈ t) :
    ∃ a b, t = a ++ c :: b ∧ c ∉ b := by
  obtain ⟨b, a, hsplit, hb⟩ := List.eq_append_cons_of_mem (List.mem_reverse.mpr h)
  refine ⟨a.reverse, b.reverse, ?_, mt List.mem_reverse.mp hb⟩
  simpa using congrArg List.reverse hsplit

/-- The first piece of a cut text is its front, and the others are parts of it. -/
private theorem isPrefix_and_isInfix_of_splitOnP {t first : Text} {rest : List Text}
    (h : t.splitOnP p = first :: rest) : first <+: t ∧ ∀ q ∈ rest, q <:+: t := by
  induction t generalizing first rest with
  | nil =>
    rw [List.splitOnP_nil] at h
    cases h
    simp
  | cons x t ih =>
    obtain ⟨q, qs, hq⟩ := List.exists_cons_of_ne_nil (List.splitOnP_ne_nil p t)
    obtain ⟨hfirst, hrest⟩ := ih hq
    have htail : t <:+: x :: t := (List.suffix_cons x t).isInfix
    rw [List.splitOnP_cons_eq_if_modifyHead, hq] at h
    split at h
    · cases h
      refine ⟨List.nil_prefix, fun r hr => ?_⟩
      rcases List.mem_cons.mp hr with rfl | hr
      · exact hfirst.isInfix.trans htail
      · exact (hrest r hr).trans htail
    · cases h
      exact ⟨(List.prefix_cons_inj x).mpr hfirst, fun r hr => (hrest r hr).trans htail⟩

/-- A piece of a cut text is a part of it. -/
theorem isInfix_of_mem_splitOnP {t w : Text} (h : w ∈ t.splitOnP p) : w <:+: t := by
  obtain ⟨q, qs, hq⟩ := List.exists_cons_of_ne_nil (List.splitOnP_ne_nil p t)
  rw [hq] at h
  rcases List.mem_cons.mp h with rfl | h
  · exact (isPrefix_and_isInfix_of_splitOnP hq).1.isInfix
  · exact (isPrefix_and_isInfix_of_splitOnP hq).2 w h

/-- A piece of a cut list does not hold the elements at which it is cut. -/
theorem eq_false_of_mem_splitOnP {α : Type} {p : α → Bool} {t w : List α}
    (h : w ∈ t.splitOnP p) : ∀ c ∈ w, p c = false := by
  induction t generalizing w with
  | nil => simp_all
  | cons x t ih =>
    obtain ⟨q, qs, hq⟩ := List.exists_cons_of_ne_nil (List.splitOnP_ne_nil p t)
    rw [List.splitOnP_cons_eq_if_modifyHead] at h
    split at h
    · rcases List.mem_cons.mp h with rfl | h
      · simp
      · exact ih h
    · next hx =>
      rw [hq, List.modifyHead_cons] at h
      rcases List.mem_cons.mp h with rfl | h
      · intro c hc
        rcases List.mem_cons.mp hc with rfl | hc
        · simpa using hx
        · exact ih (hq ▸ List.mem_cons_self ..) c hc
      · exact ih (hq ▸ List.mem_cons_of_mem q h)

/-- The pieces between occurrences of a character do not hold it. -/
theorem not_mem_of_mem_splitOn {t w : Text} {c : Char} (h : w ∈ t.splitOn c) : c ∉ w := by
  intro hc
  have hne : (c == c) = false := eq_false_of_mem_splitOnP h c hc
  simp at hne

end HeaderCards.Text
