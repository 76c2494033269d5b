import HeaderCards.Text.Block
import Mathlib.Data.List.TakeWhile

/-!
# Squeezed blocks

Squeezing keeps the visible lines, and the only other lines that it leaves are empty. A
squeezed block is squeezed to itself.
-/

namespace HeaderCards.Block

/-- A line of a squeezed block is empty or was a line of the block. -/
theorem mem_of_mem_squeezeAfter {gap : Bool} {l : Text} {ls : List Text}
    (h : l ∈ squeezeAfter gap ls) : l = [] ∨ l ∈ ls := by
  induction ls generalizing gap with
  | nil => simp [squeezeAfter] at h
  | cons k ls ih =>
    have hstep : ∀ {gap}, l ∈ squeezeAfter gap ls → l = [] ∨ l ∈ k :: ls := fun hl =>
      (ih hl).imp id (List.mem_cons_of_mem k)
    rw [squeezeAfter] at h
    split at h
    · exact hstep h
    · split at h
      · rcases List.mem_cons.mp h with rfl | h
        · exact Or.inl rfl
        · rcases List.mem_cons.mp h with rfl | h
          · exact Or.inr (List.mem_cons_self ..)
          · exact hstep h
      · rcases List.mem_cons.mp h with rfl | h
        · exact Or.inr (List.mem_cons_self ..)
        · exact hstep h

/-- A line of a squeezed block is empty or was a line of the block. -/
theorem mem_of_mem_squeeze {l : Text} {ls : List Text} (h : l ∈ squeeze ls) :
    l = [] ∨ l ∈ ls := by
  unfold squeeze at h
  split at h
  · simp at h
  · next k rest heq =>
    have hsub : (k :: rest).Sublist ls := heq ▸ List.dropWhile_sublist _
    rcases List.mem_cons.mp h with rfl | h
    · exact Or.inr (hsub.subset (List.mem_cons_self ..))
    · exact (mem_of_mem_squeezeAfter h).imp id fun hl => hsub.subset (List.mem_cons_of_mem k hl)

/-- Nothing is left of a block exactly when all of its lines are blank. -/
theorem squeeze_eq_nil_iff {ls : List Text} :
    squeeze ls = [] ↔ ∀ l ∈ ls, Text.isBlank l = true := by
  rw [← List.dropWhile_eq_nil_iff, squeeze]
  split
  · next heq => simp [heq]
  · next heq => simp [heq]

/-- What is left of a block was left for a visible line. -/
theorem squeeze_ne_nil_iff {ls : List Text} :
    squeeze ls ≠ [] ↔ ∃ l ∈ ls, Text.isBlank l = false := by
  rw [Ne, squeeze_eq_nil_iff]
  simp

/-- Behind a visible line a squeezed block is kept as it is. -/
theorem squeezeAfter_squeezeAfter (ls : List Text) :
    squeezeAfter false (squeezeAfter false ls) = squeezeAfter false ls ∧
      squeezeAfter false (squeezeAfter true ls) = squeezeAfter true ls := by
  induction ls with
  | nil => exact ⟨rfl, rfl⟩
  | cons l ls ih =>
    cases hl : Text.isBlank l with
    | true => simpa [squeezeAfter, hl] using ih.2
    | false => simp [squeezeAfter, hl, ih.1]

/-- A squeezed block has no blank line to lose. -/
@[simp] theorem squeeze_squeeze (ls : List Text) : squeeze (squeeze ls) = squeeze ls := by
  induction ls with
  | nil => rfl
  | cons l ls ih =>
    cases hl : Text.isBlank l with
    | true => rwa [squeeze_cons_of_isBlank hl]
    | false =>
      rw [squeeze_cons_of_not_isBlank hl, squeeze_cons_of_not_isBlank hl,
        (squeezeAfter_squeezeAfter ls).1]

end HeaderCards.Block
