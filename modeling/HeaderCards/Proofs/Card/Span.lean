import HeaderCards.Card.Dialect
import Mathlib.Data.List.Basic

/-!
# The lines of a card

In Fortran sources every line belongs to the card. A card in wrapped comments runs from the
first wrapped line to the last, and its lines keep the numbers that they have in the source.
-/

namespace HeaderCards.Dialect

/-- In Fortran sources all lines belong to the card. -/
theorem cardLines_fortran (ls : List Text) : fortran.cardLines ls = ls.zipIdx 1 := by
  have hlength : (ls.zipIdx 1).length ≤ ls.length :=
    Nat.le_of_eq List.length_zipIdx
  exact List.take_of_length_le hlength

/-- The lines begin and end with a wrapped line. -/
structure IsSpan (ls : List Text) : Prop where
  first : ∃ l ∈ ls.head?, isWrapped l = true
  last : ∃ l ∈ ls.getLast?, isWrapped l = true

/-- Wrapped lines begin and end with a wrapped line. -/
theorem isSpan_of_forall {ls : List Text} (hne : ls ≠ []) (h : ∀ l ∈ ls, isWrapped l = true) :
    IsSpan ls :=
  ⟨⟨ls.head hne, List.head?_eq_some_head hne, h _ (List.head_mem hne)⟩,
    ⟨ls.getLast hne, List.getLast?_eq_some_getLast hne, h _ (List.getLast_mem hne)⟩⟩

/-- Lines among which there is a wrapped one hold a card with code on both sides. -/
theorem exists_span {ls : List Text} (h : ∃ l ∈ ls, isWrapped l = true) :
    ∃ before inside after, ls = before ++ (inside ++ after) ∧ IsSpan inside ∧
      (∀ l ∈ before, isWrapped l = false) ∧ ∀ l ∈ after, isWrapped l = false := by
  obtain ⟨l, hl⟩ := Option.isSome_iff_exists.mp (List.find?_isSome.mpr h)
  obtain ⟨hfirst, before, rest, rfl, hbefore⟩ := List.find?_eq_some_iff_append.mp hl
  have hrest : ∃ k ∈ (l :: rest).reverse, isWrapped k = true := ⟨l, by simp, hfirst⟩
  obtain ⟨m, hm⟩ := Option.isSome_iff_exists.mp (List.find?_isSome.mpr hrest)
  obtain ⟨hlast, after, inside, hsplit, hafter⟩ := List.find?_eq_some_iff_append.mp hm
  have hsplit' : l :: rest = (inside.reverse ++ [m]) ++ after.reverse := by
    rw [← List.reverse_reverse (l :: rest), hsplit]
    simp
  refine ⟨before, inside.reverse ++ [m], after.reverse, by rw [hsplit'], ⟨⟨l, ?_, hfirst⟩, ?_⟩,
    by simpa using hbefore, by simpa using hafter⟩
  · have hhead := congrArg List.head? hsplit'
    rw [List.head?_append_of_ne_nil _ (by simp)] at hhead
    exact hhead.symm
  · exact ⟨m, by simp, hlast⟩

/-- The card is the span of the wrapped lines, numbered by the place in the source. -/
theorem cardLines_of_span {before inside after : List Text} (hinside : IsSpan inside)
    (hbefore : ∀ l ∈ before, isWrapped l = false) (hafter : ∀ l ∈ after, isWrapped l = false) :
    f2c.cardLines (before ++ (inside ++ after)) = inside.zipIdx (before.length + 1) := by
  have hfirst : (before ++ (inside ++ after)).findIdx? isWrapped = some before.length := by
    obtain ⟨l, hl, hwrapped⟩ := hinside.first
    obtain ⟨rest, rfl⟩ := List.head?_eq_some_iff.mp hl
    rw [List.findIdx?_append, List.findIdx?_eq_none_iff.mpr hbefore, List.cons_append,
      List.findIdx?_cons, hwrapped]
    simp
  have hlast : (before ++ (inside ++ after)).reverse.takeWhile (!isWrapped ·) = after.reverse := by
    obtain ⟨l, hl, hwrapped⟩ := hinside.last
    obtain ⟨front, rfl⟩ := List.getLast?_eq_some_iff.mp hl
    have hreverse : (before ++ (front ++ [l] ++ after)).reverse =
        after.reverse ++ l :: (front.reverse ++ before.reverse) := by simp
    rw [hreverse, List.takeWhile_append_of_pos (by simpa using hafter),
      List.takeWhile_cons_of_neg (by simp [hwrapped]), List.append_nil]
  have hend : (before ++ (inside ++ after)).length - after.reverse.length =
      before.length + inside.length := by
    simp only [List.length_append, List.length_reverse]
    omega
  rw [cardLines, region, hfirst, hlast, hend]
  simp [List.zipIdx_append, List.take_append, Nat.add_comm]

/-- Code around a card moves the lines of the card and is no part of them. -/
theorem cardLines_surrounded {pre card post : List Text}
    (hcard : ∃ l ∈ card, isWrapped l = true) (hcode : ∀ l ∈ pre ++ post, isWrapped l = false) :
    f2c.cardLines (pre ++ (card ++ post)) =
      (f2c.cardLines card).map (Prod.map id (· + pre.length)) := by
  obtain ⟨before, inside, after, rfl, hinside, hbefore, hafter⟩ := exists_span hcard
  obtain ⟨hpre, hpost⟩ := List.forall_mem_append.mp hcode
  have hlines : pre ++ (before ++ (inside ++ after) ++ post) =
      (pre ++ before) ++ (inside ++ (after ++ post)) := by simp only [List.append_assoc]
  rw [hlines,
    cardLines_of_span hinside (List.forall_mem_append.mpr ⟨hpre, hbefore⟩)
      (List.forall_mem_append.mpr ⟨hafter, hpost⟩),
    cardLines_of_span hinside hbefore hafter, List.map_snd_add_zipIdx_eq_zipIdx,
    List.length_append]
  rfl

end HeaderCards.Dialect
