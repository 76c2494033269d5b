import HeaderCards.Text.Replace

/-!
# Laws of replacing

A text is read the way replacing reads it: it is empty, begins with an occurrence, or begins
with a character that is kept. This gives an induction principle, by which replacing is shown
to leave separators alone and to add nothing but the new part.
-/

namespace HeaderCards.Text

variable {old new : Text}

/-- Induction along the occurrences that are replaced, from left to right. -/
theorem replace_induction {P : Text → Prop} (hold : old ≠ []) (nil : P [])
    (occurrence : ∀ rest, P rest → P (old ++ rest))
    (keep : ∀ c cs, startsWith (c :: cs) old = false → P cs → P (c :: cs)) (t : Text) : P t := by
  induction h : t.length using Nat.strongRecOn generalizing t with
  | ind n ih =>
    subst h
    cases t with
    | nil => exact nil
    | cons c cs =>
      cases hs : startsWith (c :: cs) old with
      | false => exact keep c cs hs (ih cs.length (by simp) cs rfl)
      | true =>
        obtain ⟨rest, hrest⟩ := startsWith_iff.mp hs
        have hlength : rest.length < (c :: cs).length := by
          have hpos := List.length_pos_iff.mpr hold
          rw [← hrest, List.length_append]
          omega
        rw [← hrest]
        exact occurrence rest (ih rest.length hlength rest rfl)

/-- A text in front of a character that `old` does not hold begins with `old` on its own. -/
theorem isPrefix_of_append_cons {a b : Text} {c : Char} (hc : c ∉ old)
    (h : old <+: a ++ c :: b) : old <+: a := by
  rcases Nat.lt_or_ge a.length old.length with hlt | hle
  · have hlonger : a ++ [c] <+: old := by
      refine List.prefix_of_prefix_length_le ⟨b, by simp⟩ h ?_
      rw [List.length_append, List.length_singleton]
      omega
    exact absurd (hlonger.subset (by simp)) hc
  · exact List.prefix_of_prefix_length_le h (List.prefix_append a _) hle

/-- A text on both sides of a character that `old` does not hold has it on one of them. -/
theorem isInfix_of_append_cons {a b : Text} {c : Char} (hc : c ∉ old)
    (h : old <:+: a ++ c :: b) : old <:+: a ∨ old <:+: b := by
  induction a with
  | nil =>
    rcases List.infix_cons_iff.mp h with h | h
    · exact Or.inl (isPrefix_of_append_cons (a := []) hc h).isInfix
    · exact Or.inr h
  | cons x a ih =>
    rcases List.infix_cons_iff.mp h with h | h
    · exact Or.inl (isPrefix_of_append_cons (a := x :: a) hc h).isInfix
    · exact (ih h).imp (fun hi => hi.trans (List.suffix_cons x a).isInfix) id

/-- Replacing does not reach across a character that `old` does not hold. -/
theorem replace_append_cons {c : Char} (hold : old ≠ []) (hc : c ∉ old) (a b : Text) :
    replace old new (a ++ c :: b) = replace old new a ++ c :: replace old new b := by
  induction a using replace_induction hold with
  | nil =>
    have hs : startsWith (c :: b) old = false := by
      rw [← Bool.not_eq_true, startsWith_iff]
      exact fun hp => hold (List.prefix_nil.mp (isPrefix_of_append_cons (a := []) hc hp))
    exact replace_cons_of_not_startsWith new hs
  | occurrence rest ih =>
    rw [List.append_assoc, replace_append hold, replace_append hold, ih, List.append_assoc]
  | keep x xs hs ih =>
    have hs' : startsWith (x :: xs ++ c :: b) old = false := by
      rw [← Bool.not_eq_true, startsWith_iff] at hs ⊢
      exact fun hp => hs (isPrefix_of_append_cons hc hp)
    rw [replace_cons_of_not_startsWith new hs, List.cons_append, List.cons_append,
      ← ih]
    exact replace_cons_of_not_startsWith new hs'

/-- Replacing begins behind the characters at which no occurrence can begin. -/
theorem replace_append_of_not_mem {c : Char} {cs v : Text} (hv : c ∉ v) (t : Text) :
    replace (c :: cs) new (v ++ t) = v ++ replace (c :: cs) new t := by
  induction v with
  | nil => rfl
  | cons x v ih =>
    have hx : startsWith (x :: (v ++ t)) (c :: cs) = false := by
      rw [← Bool.not_eq_true, startsWith_iff, List.cons_prefix_cons]
      rintro ⟨rfl, -⟩
      exact hv (List.mem_cons_self ..)
    rw [List.cons_append, replace_cons_of_not_startsWith new hx,
      ih fun hm => hv (List.mem_cons_of_mem x hm), List.cons_append]

/-- A part is not looked for among characters with which it cannot begin. -/
theorem isInfix_of_append_of_not_mem {c : Char} {cs v t : Text} (hv : c ∉ v)
    (h : c :: cs <:+: v ++ t) : c :: cs <:+: t := by
  induction v with
  | nil => exact h
  | cons x v ih =>
    rcases List.infix_cons_iff.mp h with h | h
    · obtain ⟨rfl, -⟩ := List.cons_prefix_cons.mp h
      exact absurd (List.mem_cons_self ..) hv
    · exact ih (fun hm => hv (List.mem_cons_of_mem x hm)) h

/-- A character of the result was there before or comes with the new part. -/
theorem mem_of_mem_replace {c : Char} {t : Text} (hold : old ≠ [])
    (h : c ∈ replace old new t) : c ∈ t ∨ c ∈ new := by
  induction t using replace_induction hold with
  | nil => exact Or.inl h
  | occurrence rest ih =>
    rw [replace_append hold] at h
    rcases List.mem_append.mp h with h | h
    · exact Or.inr h
    · exact (ih h).imp (List.mem_append_right old) id
  | keep x xs hs ih =>
    rw [replace_cons_of_not_startsWith new hs] at h
    rcases List.mem_cons.mp h with rfl | h
    · exact Or.inl (List.mem_cons_self ..)
    · exact (ih h).imp (List.mem_cons_of_mem x) id

/-- A part without the first character of the occurrences stands at the front of the result
only if it stood there before, provided that the new part begins like the old one. -/
theorem isPrefix_of_isPrefix_replace {c : Char} {cs ds z t : Text} (hz : c ∉ z)
    (h : z <+: replace (c :: cs) (c :: ds) t) : z <+: t := by
  have hold : c :: cs ≠ [] := List.cons_ne_nil c cs
  induction t using replace_induction hold generalizing z with
  | nil => exact h
  | occurrence rest ih =>
    rw [replace_append hold] at h
    cases z with
    | nil => exact List.nil_prefix
    | cons x z =>
      obtain ⟨rfl, -⟩ := List.cons_prefix_cons.mp h
      exact absurd (List.mem_cons_self ..) hz
  | keep x xs hs ih =>
    rw [replace_cons_of_not_startsWith _ hs] at h
    cases z with
    | nil => exact List.nil_prefix
    | cons y z =>
      obtain ⟨rfl, htail⟩ := List.cons_prefix_cons.mp h
      exact List.cons_prefix_cons.mpr ⟨rfl, ih (fun hm => hz (List.mem_cons_of_mem y hm)) htail⟩

end HeaderCards.Text
