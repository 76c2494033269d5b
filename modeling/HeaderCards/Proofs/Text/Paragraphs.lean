import HeaderCards.Proofs.Text.Block
import HeaderCards.Proofs.Text.Pieces
import Mathlib.Data.List.Chain

/-!
# Paragraphs

The paragraphs of a block are its runs of visible lines. Squeezing a block keeps its
paragraphs, puts one empty line between two of them and nothing around them. So blocks are
squeezed to the same block exactly when they have the same paragraphs, and among the blocks with
these paragraphs there is one squeezed block.
-/

namespace HeaderCards.Block

variable {l k : Text} {ls : List Text} {gap : Bool}

/-- The lines of the block that are not blank. -/
def visible (ls : List Text) : List Text := ls.filter (!Text.isBlank ·)

@[simp] theorem visible_append (a b : List Text) : visible (a ++ b) = visible a ++ visible b :=
  List.filter_append a b

theorem visible_cons_of_isBlank (h : Text.isBlank l = true) (ls : List Text) :
    visible (l :: ls) = visible ls := by
  simp [visible, h]

theorem visible_cons_of_not_isBlank (h : Text.isBlank l = false) (ls : List Text) :
    visible (l :: ls) = l :: visible ls := by
  simp [visible, h]

/-- What stands between two visible lines of a squeezed block, by whether blank lines stood
there. -/
def seam (gap : Bool) : List Text := if gap then [[]] else []

@[simp] theorem visible_seam (gap : Bool) : visible (seam gap) = [] := by cases gap <;> rfl

theorem squeezeAfter_cons_of_isBlank (h : Text.isBlank l = true) (gap : Bool) (ls : List Text) :
    squeezeAfter gap (l :: ls) = squeezeAfter true ls := by
  simp [squeezeAfter, h]

theorem squeezeAfter_cons_of_not_isBlank (h : Text.isBlank l = false) (gap : Bool)
    (ls : List Text) : squeezeAfter gap (l :: ls) = seam gap ++ l :: squeezeAfter false ls := by
  cases gap <;> simp [squeezeAfter, seam, h]

/-- Behind a visible line the visible lines are kept. -/
theorem visible_squeezeAfter (gap : Bool) (ls : List Text) :
    visible (squeezeAfter gap ls) = visible ls := by
  induction ls generalizing gap with
  | nil => rfl
  | cons l ls ih =>
    cases hl : Text.isBlank l with
    | true => rw [squeezeAfter_cons_of_isBlank hl, visible_cons_of_isBlank hl, ih]
    | false =>
      rw [squeezeAfter_cons_of_not_isBlank hl, visible_append, visible_seam, List.nil_append,
        visible_cons_of_not_isBlank hl, visible_cons_of_not_isBlank hl, ih]

/-- Squeezing keeps the visible lines and their order. -/
theorem visible_squeeze (ls : List Text) : visible (squeeze ls) = visible ls := by
  induction ls with
  | nil => rfl
  | cons l ls ih =>
    cases hl : Text.isBlank l with
    | true => rw [squeeze_cons_of_isBlank hl, visible_cons_of_isBlank hl, ih]
    | false =>
      rw [squeeze_cons_of_not_isBlank hl, visible_cons_of_not_isBlank hl,
        visible_cons_of_not_isBlank hl, visible_squeezeAfter]

/-- Blank lines are passed, and remembered if there are any. -/
theorem squeezeAfter_append_of_isBlank {blanks : List Text}
    (h : ∀ b ∈ blanks, Text.isBlank b = true) (gap : Bool) (ls : List Text) :
    squeezeAfter gap (blanks ++ ls) = squeezeAfter (gap || !blanks.isEmpty) ls := by
  induction blanks generalizing gap with
  | nil => simp
  | cons b blanks ih =>
    obtain ⟨hb, hblanks⟩ := List.forall_mem_cons.mp h
    rw [List.cons_append, squeezeAfter_cons_of_isBlank hb, ih hblanks]
    simp

/-- Up to a visible line, what is squeezed does not depend on what follows. -/
theorem exists_squeezeAfter_append (gap : Bool) (front : List Text) (hl : Text.isBlank l = false) :
    ∃ before, visible before = visible front ∧
      ∀ ls, squeezeAfter gap (front ++ l :: ls) = before ++ l :: squeezeAfter false ls := by
  induction front generalizing gap with
  | nil => exact ⟨seam gap, visible_seam gap, squeezeAfter_cons_of_not_isBlank hl gap⟩
  | cons k front ih =>
    cases hk : Text.isBlank k with
    | true =>
      obtain ⟨before, hvisible, hbefore⟩ := ih true
      refine ⟨before, by rw [hvisible, visible_cons_of_isBlank hk], fun ls => ?_⟩
      rw [List.cons_append, squeezeAfter_cons_of_isBlank hk, hbefore]
    | false =>
      obtain ⟨before, hvisible, hbefore⟩ := ih false
      refine ⟨seam gap ++ k :: before, ?_, fun ls => ?_⟩
      · rw [visible_append, visible_seam, List.nil_append, visible_cons_of_not_isBlank hk,
          visible_cons_of_not_isBlank hk, hvisible]
      · rw [List.cons_append, squeezeAfter_cons_of_not_isBlank hk, hbefore, List.append_assoc,
          List.cons_append]

/-- The same from the start of the block. -/
theorem exists_squeeze_append (front : List Text) (hl : Text.isBlank l = false) :
    ∃ before, visible before = visible front ∧
      ∀ ls, squeeze (front ++ l :: ls) = before ++ l :: squeezeAfter false ls := by
  induction front with
  | nil => exact ⟨[], rfl, squeeze_cons_of_not_isBlank hl⟩
  | cons k front ih =>
    cases hk : Text.isBlank k with
    | true =>
      obtain ⟨before, hvisible, hbefore⟩ := ih
      refine ⟨before, by rw [hvisible, visible_cons_of_isBlank hk], fun ls => ?_⟩
      rw [List.cons_append, squeeze_cons_of_isBlank hk, hbefore]
    | false =>
      obtain ⟨before, hvisible, hbefore⟩ := exists_squeezeAfter_append false front hl
      refine ⟨k :: before, ?_, fun ls => ?_⟩
      · rw [visible_cons_of_not_isBlank hk, visible_cons_of_not_isBlank hk, hvisible]
      · rw [List.cons_append, squeeze_cons_of_not_isBlank hk, hbefore, List.cons_append]

/-- Between two visible lines with only blank lines in between stands one empty line, and none
when there was no blank line. -/
theorem exists_squeeze_between {front gap back : List Text} (hl : Text.isBlank l = false)
    (hk : Text.isBlank k = false) (hgap : ∀ b ∈ gap, Text.isBlank b = true) :
    ∃ before after, squeeze (front ++ l :: (gap ++ k :: back)) =
        before ++ l :: ((if gap = [] then [] else [[]]) ++ k :: after) ∧
      visible before = visible front ∧ visible after = visible back := by
  obtain ⟨before, hvisible, hbefore⟩ := exists_squeeze_append front hl
  refine ⟨before, squeezeAfter false back, ?_, hvisible, visible_squeezeAfter false back⟩
  have hseam : seam (false || !gap.isEmpty) = if gap = [] then [] else [[]] := by
    cases gap <;> rfl
  rw [hbefore, squeezeAfter_append_of_isBlank hgap, squeezeAfter_cons_of_not_isBlank hk, hseam]

/-- The block has no blank line at either end and no two of them side by side, and its blank
lines are empty. -/
structure Squeezed (ls : List Text) : Prop where
  opens : ∀ l ∈ ls.head?, Text.isBlank l = false
  ends : ∀ l ∈ ls.getLast?, Text.isBlank l = false
  apart : ls.IsChain fun l k => ¬(Text.isBlank l = true ∧ Text.isBlank k = true)
  empty : ∀ l ∈ ls, Text.isBlank l = true → l = []

theorem Squeezed.nil : Squeezed [] := ⟨by simp, by simp, .nil, by simp⟩

theorem Squeezed.singleton (h : Text.isBlank l = false) : Squeezed [l] :=
  ⟨by simpa using h, by simpa using h, .singleton l, by simp [h]⟩

/-- A visible line can be put in front of a squeezed block, with or without an empty line
between. -/
theorem Squeezed.cons (h : Squeezed (k :: ls)) (hl : Text.isBlank l = false) (gap : Bool) :
    Squeezed (l :: (seam gap ++ k :: ls)) := by
  have hk : Text.isBlank k = false := h.opens k rfl
  cases gap with
  | true =>
    exact {
      opens := by simpa using hl
      ends := fun m hm => h.ends m (by simpa [seam] using hm)
      apart := .cons_cons (by simp [hl]) (.cons_cons (by simp [hk]) h.apart)
      empty := by simpa [seam, hl] using h.empty }
  | false =>
    exact {
      opens := by simpa using hl
      ends := fun m hm => h.ends m (by simpa [seam] using hm)
      apart := .cons_cons (by simp [hl]) h.apart
      empty := by simpa [seam, hl] using h.empty }

/-- Behind a visible line a block is squeezed. -/
theorem squeezed_squeezeAfter (hl : Text.isBlank l = false) (gap : Bool) (ls : List Text) :
    Squeezed (l :: squeezeAfter gap ls) := by
  induction ls generalizing gap l with
  | nil => exact .singleton hl
  | cons k ls ih =>
    cases hk : Text.isBlank k with
    | true =>
      rw [squeezeAfter_cons_of_isBlank hk]
      exact ih hl true
    | false =>
      rw [squeezeAfter_cons_of_not_isBlank hk]
      exact (ih hk false).cons hl gap

/-- What squeezing leaves is squeezed. -/
theorem squeezed_squeeze (ls : List Text) : Squeezed (squeeze ls) := by
  induction ls with
  | nil => exact .nil
  | cons l ls ih =>
    cases hl : Text.isBlank l with
    | true => rwa [squeeze_cons_of_isBlank hl]
    | false =>
      rw [squeeze_cons_of_not_isBlank hl]
      exact squeezed_squeezeAfter hl false ls

/-- Behind a visible line a squeezed block goes on as it is. -/
theorem Squeezed.squeezeAfter_eq : ∀ {l : Text} {ls : List Text}, Squeezed (l :: ls) →
    squeezeAfter false ls = ls
  | _, [], _ => rfl
  | l, k :: ls, h => by
    cases hk : Text.isBlank k with
    | false =>
      have htail : Squeezed (k :: ls) :=
        ⟨by simpa using hk, fun m hm => h.ends m (by simpa using hm), h.apart.tail,
          fun m hm => h.empty m (List.mem_cons_of_mem l hm)⟩
      rw [squeezeAfter_cons_of_not_isBlank hk, htail.squeezeAfter_eq]
      rfl
    | true =>
      obtain rfl : k = [] := h.empty k (by simp) hk
      -- the blank line is not the last one, and the next one is visible
      cases ls with
      | nil => simpa using h.ends [] (by simp)
      | cons m ls =>
        have hm : Text.isBlank m = false := by simpa using h.apart.tail.rel_head? rfl
        have htail : Squeezed (m :: ls) :=
          ⟨by simpa using hm, fun n hn => h.ends n (by simpa using hn), h.apart.tail.tail,
            fun n hn => h.empty n (List.mem_cons_of_mem l (List.mem_cons_of_mem [] hn))⟩
        rw [squeezeAfter_cons_of_isBlank hk, squeezeAfter_cons_of_not_isBlank hm,
          htail.squeezeAfter_eq]
        rfl

/-- The squeezed blocks are those that squeezing leaves alone. -/
theorem squeezed_iff : Squeezed ls ↔ squeeze ls = ls := by
  constructor
  · intro h
    cases ls with
    | nil => rfl
    | cons l ls => rw [squeeze_cons_of_not_isBlank (h.opens l rfl), h.squeezeAfter_eq]
  · intro h
    exact h ▸ squeezed_squeeze ls

/-- The paragraphs of a block: its longest runs of visible lines, in order. -/
def paragraphs (ls : List Text) : List (List Text) :=
  (ls.splitOnP Text.isBlank).filter (· ≠ [])

/-- A blank line ends a paragraph. -/
theorem paragraphs_append_cons (h : Text.isBlank l = true) (a b : List Text) :
    paragraphs (a ++ l :: b) = paragraphs a ++ paragraphs b := by
  rw [paragraphs, List.splitOnP_append_cons a b h, List.filter_append]
  rfl

theorem paragraphs_cons_of_isBlank (h : Text.isBlank l = true) (ls : List Text) :
    paragraphs (l :: ls) = paragraphs ls :=
  paragraphs_append_cons h [] ls

/-- Visible lines are one paragraph. -/
theorem paragraphs_of_visible {p : List Text} (hne : p ≠ [])
    (h : ∀ l ∈ p, Text.isBlank l = false) : paragraphs p = [p] := by
  rw [paragraphs, List.splitOnP_eq_singleton h]
  simp [hne]

/-- Paragraphs with an empty line between two of them are found again. -/
theorem paragraphs_intercalate {ps : List (List Text)}
    (h : ∀ p ∈ ps, p ≠ [] ∧ ∀ l ∈ p, Text.isBlank l = false) :
    paragraphs (List.intercalate [[]] ps) = ps := by
  induction ps with
  | nil => rfl
  | cons p ps ih =>
    obtain ⟨⟨hne, hp⟩, hps⟩ := List.forall_mem_cons.mp h
    cases ps with
    | nil => rw [List.intercalate_singleton, paragraphs_of_visible hne hp]
    | cons q ps =>
      rw [List.intercalate_cons_cons, List.append_assoc, List.singleton_append,
        paragraphs_append_cons Text.isBlank_nil, paragraphs_of_visible hne hp, ih hps,
        List.singleton_append]

/-- A paragraph has lines, and all of them are visible. -/
theorem of_mem_paragraphs {p : List Text} (h : p ∈ paragraphs ls) :
    p ≠ [] ∧ ∀ l ∈ p, Text.isBlank l = false := by
  obtain ⟨hpiece, hne⟩ := List.mem_filter.mp h
  exact ⟨by simpa using hne, Text.eq_false_of_mem_splitOnP hpiece⟩

/-- A blank line begins a new piece. -/
theorem splitOnP_cons_of_isBlank (hl : Text.isBlank l = true) (ls : List Text) :
    (l :: ls).splitOnP Text.isBlank = [] :: ls.splitOnP Text.isBlank :=
  List.splitOnP_append_cons [] ls hl

/-- A visible line is put in front of the first piece. -/
theorem exists_splitOnP_cons (hl : Text.isBlank l = false) (ls : List Text) :
    ∃ p ps, ls.splitOnP Text.isBlank = p :: ps ∧
      (l :: ls).splitOnP Text.isBlank = (l :: p) :: ps := by
  obtain ⟨p, ps, hp⟩ := List.exists_cons_of_ne_nil (List.splitOnP_ne_nil Text.isBlank ls)
  refine ⟨p, ps, hp, ?_⟩
  rw [List.splitOnP_cons_eq_if_modifyHead, hp, hl, if_neg Bool.false_ne_true,
    List.modifyHead_cons]

/-- Behind a visible line the first piece continues a paragraph, and an empty line stands in
front of every further paragraph. -/
theorem squeezeAfter_eq_intercalate {p : List Text} {ps : List (List Text)}
    (h : ls.splitOnP Text.isBlank = p :: ps) :
    squeezeAfter false ls = List.intercalate [[]] (p :: ps.filter (· ≠ [])) ∧
      squeezeAfter true ls = List.intercalate [[]] ([] :: (p :: ps).filter (· ≠ [])) := by
  induction ls generalizing p ps with
  | nil =>
    rw [List.splitOnP_nil] at h
    cases h
    exact ⟨rfl, rfl⟩
  | cons l ls ih =>
    cases hl : Text.isBlank l with
    | true =>
      obtain ⟨q, qs, hq⟩ := List.exists_cons_of_ne_nil (List.splitOnP_ne_nil Text.isBlank ls)
      rw [splitOnP_cons_of_isBlank hl, hq] at h
      cases h
      rw [squeezeAfter_cons_of_isBlank hl, squeezeAfter_cons_of_isBlank hl, (ih hq).2]
      exact ⟨rfl, rfl⟩
    | false =>
      obtain ⟨q, qs, hq, hcons⟩ := exists_splitOnP_cons hl ls
      rw [hcons] at h
      cases h
      rw [squeezeAfter_cons_of_not_isBlank hl, squeezeAfter_cons_of_not_isBlank hl, (ih hq).1,
        List.filter_cons_of_pos (by simp), List.intercalate_cons_cons,
        List.intercalate_cons_cons_left]
      exact ⟨rfl, rfl⟩

/-- A squeezed block consists of its paragraphs with one empty line between two of them. -/
theorem squeeze_eq_intercalate (ls : List Text) :
    squeeze ls = List.intercalate [[]] (paragraphs ls) := by
  induction ls with
  | nil => rfl
  | cons l ls ih =>
    cases hl : Text.isBlank l with
    | true => rw [squeeze_cons_of_isBlank hl, ih, paragraphs_cons_of_isBlank hl]
    | false =>
      obtain ⟨q, qs, hq, hcons⟩ := exists_splitOnP_cons hl ls
      rw [squeeze_cons_of_not_isBlank hl, (squeezeAfter_eq_intercalate hq).1, paragraphs, hcons,
        List.filter_cons_of_pos (by simp), List.intercalate_cons_cons_left]

/-- Squeezing keeps the paragraphs. -/
@[simp] theorem paragraphs_squeeze (ls : List Text) : paragraphs (squeeze ls) = paragraphs ls := by
  rw [squeeze_eq_intercalate, paragraphs_intercalate fun p => of_mem_paragraphs]

/-- Blocks are squeezed to the same block when they have the same paragraphs. -/
theorem squeeze_eq_iff {a b : List Text} : squeeze a = squeeze b ↔ paragraphs a = paragraphs b := by
  constructor
  · intro h
    rw [← paragraphs_squeeze a, h, paragraphs_squeeze]
  · intro h
    rw [squeeze_eq_intercalate, h, squeeze_eq_intercalate]

/-- The paragraphs together are the visible lines. -/
theorem flatten_paragraphs (ls : List Text) : (paragraphs ls).flatten = visible ls := by
  rw [paragraphs, List.flatten_filter_ne_nil]
  induction ls with
  | nil => rfl
  | cons l ls ih =>
    cases hl : Text.isBlank l with
    | true =>
      rw [splitOnP_cons_of_isBlank hl, List.flatten_cons, List.nil_append, ih,
        visible_cons_of_isBlank hl]
    | false =>
      obtain ⟨q, qs, hq, hcons⟩ := exists_splitOnP_cons hl ls
      rw [hcons, visible_cons_of_not_isBlank hl, ← ih, hq]
      rfl

/-- Squeezing computes the normal form of a block. It keeps the visible lines and their order.
Between two of them with only blank lines in between stands one empty line, and none when there
was no blank line. The result has no blank line at either end and no two side by side, and its
blank lines are empty; it consists of the paragraphs of the block with one empty line between two
of them. Nothing is left of a block exactly when it has no visible line, and a squeezed block is
left alone. Blocks are squeezed to the same block exactly when they have the same paragraphs, so
that a squeezed block is the only one with its paragraphs. -/
theorem squeeze_by_paragraphs :
    (∀ ls : List Text,
      visible (squeeze ls) = visible ls ∧
      (∀ front l gap k back, ls = front ++ l :: (gap ++ k :: back) →
        Text.isBlank l = false → Text.isBlank k = false → (∀ b ∈ gap, Text.isBlank b = true) →
        ∃ before after,
          squeeze ls = before ++ l :: ((if gap = [] then [] else [[]]) ++ k :: after) ∧
          visible before = visible front ∧ visible after = visible back) ∧
      Squeezed (squeeze ls) ∧
      squeeze ls = List.intercalate [[]] (paragraphs ls) ∧
      (paragraphs ls).flatten = visible ls ∧
      (squeeze ls = [] ↔ ∀ l ∈ ls, Text.isBlank l = true) ∧
      squeeze (squeeze ls) = squeeze ls) ∧
    (∀ a b : List Text, squeeze a = squeeze b ↔ paragraphs a = paragraphs b) ∧
    ∀ a b : List Text, Squeezed a → Squeezed b → paragraphs a = paragraphs b → a = b := by
  refine ⟨fun ls => ⟨visible_squeeze ls, ?_, squeezed_squeeze ls, squeeze_eq_intercalate ls,
    flatten_paragraphs ls, squeeze_eq_nil_iff, squeeze_squeeze ls⟩, fun a b => squeeze_eq_iff,
    fun a b ha hb h => ?_⟩
  · rintro front l gap k back rfl hl hk hgap
    exact exists_squeeze_between hl hk hgap
  · rw [← squeezed_iff.mp ha, squeeze_eq_iff.mpr h, squeezed_iff.mp hb]

/-- A block with blank lines around it, two blank lines behind its first visible line, one of
them an em space, and none behind its second one. -/
def looseBlock : List Text := ["", "  a", "\u2003", "", "b", "c ", " \t"]

/-- The loose block keeps one empty line, behind its first visible line, and is squeezed to the
same block as one that has a single blank line there. -/
theorem squeeze_looseBlock :
    squeeze looseBlock = ["  a".toList, [], "b".toList, "c ".toList] ∧
    (∃ before after, squeeze looseBlock = before ++ "  a".toList :: [] :: "b".toList :: after ∧
      visible before = [] ∧ visible after = ["c ".toList]) ∧
    (∃ before after, squeeze looseBlock = before ++ "b".toList :: "c ".toList :: after ∧
      visible before = ["  a".toList] ∧ visible after = []) ∧
    squeeze ["  a", "\t", "b", "c "] = squeeze looseBlock := by
  obtain ⟨hblock, hsame, hunique⟩ := squeeze_by_paragraphs
  obtain ⟨-, hbetween, hsqueezed, -⟩ := hblock looseBlock
  refine ⟨?_, ?_, ?_, ?_⟩
  · have hkept : Squeezed ["  a", [], "b", "c "] :=
      ⟨by decide, by decide, by decide +kernel, by decide +kernel⟩
    exact hunique _ _ hsqueezed hkept (by decide +kernel)
  · exact hbetween [""] "  a" ["\u2003", ""] "b" ["c ", " \t"] rfl (by decide) (by decide)
      (by decide +kernel)
  · exact hbetween ["", "  a", "\u2003", ""] "b" [] "c " [" \t"] rfl (by decide) (by decide)
      (by decide)
  · exact (hsame _ _).mpr (by decide +kernel)

end HeaderCards.Block
