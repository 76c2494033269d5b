import HeaderCards.Text.Space
import Mathlib.Data.List.DropRight

/-!
# White space at the ends of a text

A text that neither begins nor ends with white space is left alone by trimming, and what
trimming leaves is such a text. It is a part of the text that was trimmed.
-/

namespace HeaderCards.Text

/-- A text that begins with a visible character keeps its front. -/
theorem trimStart_cons_of_visible {c : Char} (h : isSpace c = false) (t : Text) :
    trimStart (c :: t) = c :: t := by
  simp [trimStart, h]

theorem trimStart_cons_of_isSpace {c : Char} (h : isSpace c = true) (t : Text) :
    trimStart (c :: t) = trimStart t := by
  simp [trimStart, h]

/-- White space at the front is taken away. -/
theorem trimStart_blank_append {w : Text} (hw : isBlank w = true) (t : Text) :
    trimStart (w ++ t) = trimStart t :=
  List.dropWhile_append_of_pos (List.all_eq_true.mp hw)

theorem trimStart_isSuffix (t : Text) : trimStart t <:+ t := List.dropWhile_suffix _

/-- What is left at the front is visible. -/
theorem visible_of_trimStart_eq_cons {c : Char} {s t : Text} (h : trimStart t = c :: s) :
    isSpace c = false := by
  have hhead := List.head?_dropWhile_not isSpace t
  rw [← trimStart, h] at hhead
  simpa using hhead

/-- A text that ends with a visible character keeps its end. -/
theorem trimEnd_append_of_visible {c : Char} (h : isSpace c = false) (t : Text) :
    trimEnd (t ++ [c]) = t ++ [c] := by
  simp [trimEnd, h]

/-- White space at the end is taken away. -/
theorem trimEnd_append_blank {w : Text} (hw : isBlank w = true) (t : Text) :
    trimEnd (t ++ w) = trimEnd t := by
  have hback : ∀ c ∈ w.reverse, isSpace c = true := fun c hc =>
    List.all_eq_true.mp hw c (List.mem_reverse.mp hc)
  rw [trimEnd, trimEnd, List.reverse_append, List.dropWhile_append_of_pos hback]

theorem trimEnd_isPrefix (t : Text) : trimEnd t <+: t := by
  obtain ⟨w, _, ht⟩ := exists_trimEnd t
  exact ⟨w, ht.symm⟩

@[simp] theorem trimEnd_trimEnd (t : Text) : trimEnd (trimEnd t) = trimEnd t :=
  List.rdropWhile_idempotent isSpace t

theorem trim_isInfix (t : Text) : trim t <:+: t :=
  (trimEnd_isPrefix _).isInfix.trans (trimStart_isSuffix t).isInfix

/-- What trimming leaves begins with a visible character. -/
theorem visible_of_trim_eq_cons {c : Char} {s t : Text} (h : trim t = c :: s) :
    isSpace c = false := by
  obtain ⟨rest, hrest⟩ := trimEnd_isPrefix (trimStart t)
  rw [← trim, h, List.cons_append] at hrest
  exact visible_of_trimStart_eq_cons hrest.symm

/-- Trimming leaves nothing to be trimmed. -/
@[simp] theorem trim_trim (t : Text) : trim (trim t) = trim t := by
  have hstart : trimStart (trim t) = trim t := by
    cases h : trim t with
    | nil => rfl
    | cons c s => exact trimStart_cons_of_visible (visible_of_trim_eq_cons h) s
  rw [trim, hstart, trim, trimEnd_trimEnd]

/-- White space behind a text is trimmed away. -/
theorem trim_append_blank {w : Text} (hw : isBlank w = true) (t : Text) :
    trim (t ++ w) = trim t := by
  by_cases ht : isBlank t = true
  · have hboth : isBlank (t ++ w) = true := by rw [isBlank_append, ht, hw, Bool.true_and]
    rw [trim_eq_nil_iff.mpr hboth, trim_eq_nil_iff.mpr ht]
  · have hfront : trimStart (t ++ w) = trimStart t ++ w := by
      rw [trimStart, List.dropWhile_append, if_neg]
      · rfl
      · rwa [List.isEmpty_iff, ← trimStart, trimStart_eq_nil_iff]
    rw [trim, hfront, trimEnd_append_blank hw, trim]

/-- A text with a visible character at either end is left alone. -/
theorem trim_eq_self {c e : Char} {t m : Text} (hc : isSpace c = false) (he : isSpace e = false)
    (hfront : t = c :: m) {front : Text} (hend : t = front ++ [e]) : trim t = t := by
  rw [trim, hfront, trimStart_cons_of_visible hc, ← hfront, hend, trimEnd_append_of_visible he]

/-- Of a text that ends with a visible character only the front is trimmed, and it still ends
with this character. -/
theorem exists_trim_of_isSuffix {e : Char} {t : Text} (he : isSpace e = false) (h : [e] <:+ t) :
    ∃ w, isBlank w = true ∧ t = w ++ trim t ∧ [e] <:+ trim t := by
  obtain ⟨w, hw, ht⟩ := exists_trimStart t
  obtain ⟨front, rfl⟩ := h
  have hend : [e] <:+ trimStart (front ++ [e]) := by
    rcases List.eq_nil_or_concat (trimStart (front ++ [e])) with hnil | ⟨s, x, hs⟩
    · rw [trimStart_eq_nil_iff, isBlank_append, isBlank_cons, he] at hnil
      simp at hnil
    · rw [hs, List.concat_eq_append, ← List.append_assoc] at ht
      obtain ⟨-, hx⟩ := List.append_inj' ht rfl
      exact ⟨s, by rw [hs, List.concat_eq_append, hx]⟩
  obtain ⟨s, hs⟩ := hend
  have htrim : trim (front ++ [e]) = trimStart (front ++ [e]) := by
    rw [trim, ← hs, trimEnd_append_of_visible he]
  exact ⟨w, hw, by rw [htrim, ← ht], s, by rw [htrim, hs]⟩

end HeaderCards.Text
