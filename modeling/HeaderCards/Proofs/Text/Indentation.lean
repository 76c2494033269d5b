import HeaderCards.Proofs.Outcome
import HeaderCards.Proofs.Text.Space
import HeaderCards.Text.Block
import Mathlib.Order.Bounds.Basic

/-!
# Dedented blocks

Dedenting takes the same number of white space characters from the front of every visible line:
the least indentation of these lines, whatever the characters are. So the lines keep their
indentation relative to each other, one of them loses all of it, and a block that is indented as
a whole is dedented to the same block.
-/

namespace HeaderCards.Block

variable {k m n : Nat} {l r w : Text} {ls rs : List Text}

/-- White space in front of a line adds to its indentation. -/
theorem indentation_blank_append (hw : Text.isBlank w = true) (l : Text) :
    indentation (w ++ l) = w.length + indentation l := by
  rw [indentation, List.takeWhile_append_of_pos (List.all_eq_true.mp hw), List.length_append,
    indentation]

/-- What follows a visible line does not change its indentation. -/
theorem indentation_append (hl : Text.isBlank l = false) (w : Text) :
    indentation (l ++ w) = indentation l := by
  have hfront : (l.takeWhile Text.isSpace).length ≠ l.length := by
    intro h
    have hall : l.takeWhile Text.isSpace = l := (List.takeWhile_prefix _).eq_of_length h
    have hblank : Text.isBlank l = true :=
      List.all_eq_true.mpr (List.takeWhile_eq_self_iff.mp hall)
    rw [hblank] at hl
    contradiction
  rw [indentation, List.takeWhile_append, if_neg hfront, indentation]

/-- The characters up to the indentation of a line are white space. -/
theorem isBlank_take (h : n ≤ indentation l) : Text.isBlank (l.take n) = true := by
  refine List.all_eq_true.mpr fun c hc => ?_
  rw [← l.takeWhile_append_dropWhile (p := Text.isSpace), List.take_append_of_le_length h] at hc
  exact List.mem_takeWhile_imp (List.mem_of_mem_take hc)

/-- A line is cut in the same way whether it is blank or not. -/
theorem cutLine_eq (n : Nat) (l : Text) : cutLine n l = Text.trimEnd (l.drop n) := by
  rw [cutLine]
  split
  · next h =>
    have hrest : Text.isBlank (l.drop n) = true :=
      List.all_eq_true.mpr fun c hc => List.all_eq_true.mp h c (List.mem_of_mem_drop hc)
    exact (Text.trimEnd_eq_nil_iff.mpr hrest).symm
  · rfl

/-- Cutting a cut line by nothing leaves it alone. -/
theorem cutLine_zero_cutLine (n : Nat) (l : Text) : cutLine 0 (cutLine n l) = cutLine n l := by
  rw [cutLine_eq, cutLine_eq, List.drop_zero, Text.trimEnd_trimEnd]

/-- What is left of a line when white space of `m` characters is taken from its front and all
white space from its end. Of a blank line nothing is left. -/
inductive Cut (m : Nat) : Text → Text → Prop
  | blank {l : Text} (h : Text.isBlank l = true) : Cut m l []
  | visible {front r back : Text} (hfront : Text.isBlank front = true) (hm : front.length = m)
      (hr : Text.isBlank r = false) (hend : Text.trimEnd r = r)
      (hback : Text.isBlank back = true) : Cut m (front ++ (r ++ back)) r

/-- Within its indentation a line is cut at white space only. -/
theorem cut_cutLine (h : Text.isBlank l = false → m ≤ indentation l) : Cut m l (cutLine m l) := by
  cases hl : Text.isBlank l with
  | true =>
    rw [cutLine, if_pos hl]
    exact .blank hl
  | false =>
    have hfront : Text.isBlank (l.take m) = true := isBlank_take (h hl)
    have hm : (l.take m).length = m :=
      List.length_take_of_le ((h hl).trans (List.takeWhile_sublist _).length_le)
    obtain ⟨back, hback, hdrop⟩ := Text.exists_trimEnd (l.drop m)
    rw [← cutLine_eq] at hdrop
    have hsplit : l = l.take m ++ (cutLine m l ++ back) := by
      rw [← hdrop, List.take_append_drop]
    have hr : Text.isBlank (cutLine m l) = false := by
      rw [hsplit, Text.isBlank_append, Text.isBlank_append, hfront, hback] at hl
      simpa using hl
    have hend : Text.trimEnd (cutLine m l) = cutLine m l := by
      rw [cutLine_eq, Text.trimEnd_trimEnd]
    have hcut := Cut.visible hfront hm hr hend hback
    rwa [← hsplit] at hcut

/-- The visible characters of a line. -/
def ink (l : Text) : Text := l.filter (!Text.isSpace ·)

@[simp] theorem ink_append (a b : Text) : ink (a ++ b) = ink a ++ ink b := List.filter_append a b

theorem ink_of_isBlank (h : Text.isBlank l = true) : ink l = [] :=
  List.filter_eq_nil_iff.mpr fun c hc => by simp [List.all_eq_true.mp h c hc]

namespace Cut

/-- A line is cut to a blank line when it is one. -/
theorem isBlank_eq (h : Cut m l r) : Text.isBlank r = Text.isBlank l := by
  cases h with
  | blank h => rw [h, Text.isBlank_nil]
  | visible hfront hm hr hend hback => simp [hr]

/-- No visible character is cut off. -/
theorem ink_eq (h : Cut m l r) : ink r = ink l := by
  cases h with
  | blank h => rw [ink_of_isBlank h, ink_of_isBlank Text.isBlank_nil]
  | visible hfront hm hr hend hback =>
    rw [ink_append, ink_append, ink_of_isBlank hfront, ink_of_isBlank hback, List.nil_append,
      List.append_nil]

/-- A visible line loses as much of its indentation as is cut off. -/
theorem indentation_eq (h : Cut m l r) (hl : Text.isBlank l = false) :
    indentation l = m + indentation r := by
  cases h with
  | blank h =>
    rw [h] at hl
    contradiction
  | visible hfront hm hr hend hback =>
    rw [indentation_blank_append hfront, hm, indentation_append hr]

end Cut

/-- The indentations of the visible lines. -/
def indentations (ls : List Text) : Set Nat :=
  {n | ∃ l ∈ ls, Text.isBlank l = false ∧ indentation l = n}

/-- The margin is the least indentation of a visible line. -/
theorem isLeast_margin (h : ∃ l ∈ ls, Text.isBlank l = false) :
    IsLeast (indentations ls) (margin ls) := by
  obtain ⟨l, hl, hvisible⟩ := h
  have hmem : ∀ n, n ∈ (ls.filter (!Text.isBlank ·)).map indentation ↔ n ∈ indentations ls := by
    simp [indentations, and_assoc]
  have hne : ((ls.filter (!Text.isBlank ·)).map indentation).min? ≠ none := by
    rw [Ne, List.min?_eq_none_iff]
    exact List.ne_nil_of_mem ((hmem _).mpr ⟨l, hl, hvisible, rfl⟩)
  obtain ⟨n, hn⟩ := Option.ne_none_iff_exists'.mp hne
  rw [margin, hn, Option.getD_some]
  obtain ⟨hleast, hlower⟩ := List.min?_eq_some_iff.mp hn
  exact ⟨(hmem n).mp hleast, fun k hk => hlower k ((hmem k).mpr hk)⟩

theorem margin_le (hl : l ∈ ls) (hvisible : Text.isBlank l = false) :
    margin ls ≤ indentation l :=
  (isLeast_margin ⟨l, hl, hvisible⟩).2 ⟨l, hl, hvisible, rfl⟩

/-- Other visible lines than the ones of the block have no part in the margin. -/
theorem map_cutLine_eq (h : (∃ l ∈ ls, Text.isBlank l = false) → margin ls = n) :
    ls.map (cutLine n) = dedent ls := by
  refine List.map_congr_left fun l hl => ?_
  cases hvisible : Text.isBlank l with
  | true => simp [cutLine, hvisible]
  | false => rw [h ⟨l, hl, hvisible⟩]

/-- The second line is blank like the first, or visible like it with the indentation that `f`
gives. -/
structure Reindented (f : Nat → Nat) (l r : Text) : Prop where
  isBlank_eq : Text.isBlank r = Text.isBlank l
  indentation_eq : Text.isBlank l = false → indentation r = f (indentation l)

/-- Where all visible lines are indented in another way, so is the one with the margin. -/
theorem margin_of_reindented {f : Nat → Nat} (hf : Monotone f)
    (h : List.Forall₂ (Reindented f) ls rs) (hvisible : ∃ l ∈ ls, Text.isBlank l = false) :
    margin rs = f (margin ls) := by
  obtain ⟨⟨l, hl, hlvisible, hindentation⟩, hlower⟩ := isLeast_margin hvisible
  obtain ⟨r, hr, hlr⟩ := exists_right_of_forall₂ h hl
  have hrvisible : Text.isBlank r = false := hlr.isBlank_eq.trans hlvisible
  refine (isLeast_margin ⟨r, hr, hrvisible⟩).unique ⟨⟨r, hr, hrvisible, ?_⟩, ?_⟩
  · rw [hlr.indentation_eq hlvisible, hindentation]
  · rintro _ ⟨s, hs, hsvisible, rfl⟩
    obtain ⟨t, ht, hts⟩ := exists_left_of_forall₂ h hs
    have htvisible : Text.isBlank t = false := hts.isBlank_eq.symm.trans hsvisible
    rw [hts.indentation_eq htvisible]
    exact hf (hlower ⟨t, ht, htvisible, rfl⟩)

/-- A list that stands beside a block has a visible line only when the block has one. -/
theorem exists_visible_of_forall₂ {R : Text → Text → Prop}
    (hR : ∀ l r, R l r → Text.isBlank r = Text.isBlank l) (h : List.Forall₂ R ls rs)
    (hvisible : ∃ r ∈ rs, Text.isBlank r = false) : ∃ l ∈ ls, Text.isBlank l = false := by
  obtain ⟨r, hr, hr'⟩ := hvisible
  obtain ⟨l, hl, hlr⟩ := exists_left_of_forall₂ h hr
  exact ⟨l, hl, (hR l r hlr).symm.trans hr'⟩

/-- Every line of a block is cut by the margin of the block. -/
theorem forall₂_cut (ls : List Text) : List.Forall₂ (Cut (margin ls)) ls (dedent ls) := by
  rw [dedent, List.forall₂_map_right_iff, List.forall₂_same]
  exact fun l hl => cut_cutLine (margin_le hl)

/-- Dedenting leaves no margin. -/
theorem margin_dedent (hvisible : ∃ l ∈ ls, Text.isBlank l = false) : margin (dedent ls) = 0 := by
  have hmono : Monotone (· - margin ls) := fun a b hab => Nat.sub_le_sub_right hab _
  have hcut : List.Forall₂ (Reindented (· - margin ls)) ls (dedent ls) :=
    (forall₂_cut ls).imp fun l r h =>
      ⟨h.isBlank_eq, fun hl => by rw [h.indentation_eq hl, Nat.add_sub_cancel_left]⟩
  rw [margin_of_reindented hmono hcut hvisible, Nat.sub_self]

/-- A dedented block is left alone. -/
theorem dedent_dedent (ls : List Text) : dedent (dedent ls) = dedent ls := by
  have hmargin : (∃ l ∈ dedent ls, Text.isBlank l = false) → margin (dedent ls) = 0 := fun h =>
    margin_dedent (exists_visible_of_forall₂ (fun _ _ => Cut.isBlank_eq) (forall₂_cut ls) h)
  rw [← map_cutLine_eq hmargin, dedent, List.map_map]
  exact List.map_congr_left fun l _ => cutLine_zero_cutLine (margin ls) l

/-- The line with white space of `k` characters in front of it, of whatever kind; beside a blank
line any blank line. -/
inductive Shifted (k : Nat) : Text → Text → Prop
  | blank {l r : Text} (hl : Text.isBlank l = true) (hr : Text.isBlank r = true) : Shifted k l r
  | visible {l w : Text} (hl : Text.isBlank l = false) (hw : Text.isBlank w = true)
      (hk : w.length = k) : Shifted k l (w ++ l)

namespace Shifted

theorem reindented (h : Shifted k l r) : Reindented (k + ·) l r := by
  cases h with
  | blank hl hr => exact ⟨hr.trans hl.symm, fun h => by simp [hl] at h⟩
  | visible hl hw hk =>
    exact ⟨by simp [hw], fun _ => by rw [indentation_blank_append hw, hk]⟩

/-- What was put in front of a line is cut off again. -/
theorem cutLine_eq (h : Shifted k l r) (n : Nat) : cutLine (k + n) r = cutLine n l := by
  cases h with
  | blank hl hr => rw [cutLine, if_pos hr, cutLine, if_pos hl]
  | visible hl hw hk =>
    rw [Block.cutLine_eq, Block.cutLine_eq, ← hk, List.drop_length_add_append]

end Shifted

/-- A block that is indented as a whole is dedented to the same block. -/
theorem dedent_shifted (h : List.Forall₂ (Shifted k) ls rs) : dedent rs = dedent ls := by
  have hreindented : List.Forall₂ (Reindented (k + ·)) ls rs := h.imp fun _ _ => Shifted.reindented
  have hmargin : (∃ r ∈ rs, Text.isBlank r = false) → margin rs = k + margin ls := fun hvisible =>
    margin_of_reindented (fun _ _ hab => Nat.add_le_add_left hab k) hreindented
      (exists_visible_of_forall₂ (fun _ _ => Reindented.isBlank_eq) hreindented hvisible)
  rw [← map_cutLine_eq hmargin, dedent]
  exact map_eq_map_of_forall₂ (h.imp fun _ _ hlr => hlr.cutLine_eq (margin ls))

/-- Dedenting takes away exactly the indentation that the visible lines share. The margin is the
least indentation of a visible line, counted in characters. Every line stands beside what is left
of it: of a blank line nothing, and of a visible line what is left when as many characters as the
margin has, all of them white space, are taken from its front and all white space from its end. So
no visible character is lost, two visible lines keep their indentation relative to each other, and
one of them loses all of its indentation. A dedented block is left alone, and a block whose visible
lines are indented further, by as many white space characters each, is dedented to the same. -/
theorem dedent_by_margin :
    (∀ ls : List Text,
      ((∃ l ∈ ls, Text.isBlank l = false) → IsLeast (indentations ls) (margin ls)) ∧
      List.Forall₂ (Cut (margin ls)) ls (dedent ls) ∧
      (dedent ls).map ink = ls.map ink ∧
      (∀ p ∈ ls.zip (dedent ls), ∀ q ∈ ls.zip (dedent ls),
        Text.isBlank p.1 = false → Text.isBlank q.1 = false →
        (indentation p.2 : Int) - indentation q.2 = indentation p.1 - indentation q.1) ∧
      ((∃ l ∈ ls, Text.isBlank l = false) →
        ∃ l ∈ dedent ls, Text.isBlank l = false ∧ indentation l = 0) ∧
      dedent (dedent ls) = dedent ls) ∧
    ∀ (k : Nat) (ls rs : List Text), List.Forall₂ (Shifted k) ls rs → dedent rs = dedent ls := by
  refine ⟨fun ls => ⟨isLeast_margin, forall₂_cut ls, ?_, ?_, ?_, dedent_dedent ls⟩,
    fun k ls rs => dedent_shifted⟩
  · exact map_eq_map_of_forall₂ ((forall₂_cut ls).imp fun _ _ => Cut.ink_eq)
  · intro p hp q hq hpvisible hqvisible
    have hp' := (List.forall₂_zip (forall₂_cut ls) hp).indentation_eq hpvisible
    have hq' := (List.forall₂_zip (forall₂_cut ls) hq).indentation_eq hqvisible
    omega
  · rintro ⟨l, hl, hvisible⟩
    obtain ⟨r, hr, hcut⟩ := exists_right_of_forall₂ (forall₂_cut ls) hl
    have hr' : ∃ r ∈ dedent ls, Text.isBlank r = false := ⟨r, hr, hcut.isBlank_eq.trans hvisible⟩
    have hzero := (isLeast_margin hr').1
    rwa [margin_dedent ⟨l, hl, hvisible⟩] at hzero

/-- A block indented with an em space and a blank on one line and with two blanks and a no-break
space on another. The lines between are blank. -/
def mixedBlock : List Text := ["\u2003 a  ", "", " \t", "  \u00A0b"]

/-- The mixed block with two tabs in front of one line and an ideographic space and a blank in
front of the other. -/
def fartherBlock : List Text := ["\t\t\u2003 a  ", " ", "", "\u3000   \u00A0b"]

/-- The mixed block has a margin of two characters. Without it the first line has no indentation
left and the last one has that of its third character, and this is so too when the block is
indented further. -/
theorem dedent_mixedBlock :
    IsLeast (indentations mixedBlock) 2 ∧
    dedent mixedBlock = ["a".toList, [], [], "\u00A0b".toList] ∧
    (indentation "\u00A0b" : Int) - indentation "a" =
      indentation "  \u00A0b" - indentation "\u2003 a  " ∧
    (∃ l ∈ dedent mixedBlock, Text.isBlank l = false ∧ indentation l = 0) ∧
    List.Forall₂ (Shifted 2) mixedBlock fartherBlock ∧
    dedent fartherBlock = dedent mixedBlock := by
  have hvisible : ∃ l ∈ mixedBlock, Text.isBlank l = false := by decide +kernel
  have hshifted : List.Forall₂ (Shifted 2) mixedBlock fartherBlock :=
    .cons (.visible (w := "\t\t") (by decide +kernel) (by decide +kernel) rfl)
      (.cons (.blank rfl (by decide +kernel)) (.cons (.blank (by decide +kernel) rfl)
        (.cons (.visible (w := "\u3000 ") (by decide +kernel) (by decide +kernel) rfl) .nil)))
  obtain ⟨hblock, hfarther⟩ := dedent_by_margin
  obtain ⟨hmargin, -, -, hrelative, hzero, -⟩ := hblock mixedBlock
  refine ⟨?_, by decide +kernel, ?_, hzero hvisible, hshifted, hfarther 2 _ _ hshifted⟩
  · have htwo : margin mixedBlock = 2 := by decide +kernel
    exact htwo ▸ hmargin hvisible
  · exact hrelative ("  \u00A0b", "\u00A0b") (by decide +kernel) ("\u2003 a  ", "a")
      (by decide +kernel) (by decide +kernel) (by decide +kernel)

end HeaderCards.Block
