import HeaderCards.Header
import HeaderCards.Proofs.Outcome
import Mathlib.Data.List.DropRight

/-!
# Declarations as blocks of lines

The declaration lines of a header are cut into blocks. A block begins on the first opening
line and ends with the first closing line from there on; the next block is looked for
behind it. An opening line without a closing line from there on begins an unfinished rest.
The scan reads every block on its own and in order, and reports the unfinished rest only
when all blocks have been read.
-/

namespace HeaderCards.Header

/-- The first block of the lines and the lines behind it. -/
def nextBlock? (f : Family) (ls : List Text) : Option (List Text × List Text) :=
  match (ls.dropWhile (!opens f ·)).dropWhile (!closes ·) with
  | [] => none
  | last :: behind => some ((ls.dropWhile (!opens f ·)).takeWhile (!closes ·) ++ [last], behind)

/-- A block begins on the first opening line and ends on the first closing line from there
on. -/
theorem nextBlock?_eq_some_iff {f : Family} {ls block behind : List Text} :
    nextBlock? f ls = some (block, behind) ↔
      ∃ passed init last, ls = passed ++ (init ++ last :: behind) ∧ block = init ++ [last] ∧
        (∀ k ∈ passed, opens f k = false) ∧ (∀ k ∈ init, closes k = false) ∧
        closes last = true ∧ ∀ l ∈ block.head?, opens f l = true := by
  constructor
  · intro h
    have hpassed := List.takeWhile_append_dropWhile (p := (!opens f ·)) (l := ls)
    have hhead := List.head?_dropWhile_not (!opens f ·) ls
    rw [nextBlock?] at h
    generalize ls.dropWhile (!opens f ·) = opened at h hpassed hhead
    have hinit := List.takeWhile_append_dropWhile (p := (!closes ·)) (l := opened)
    have hlast := List.head?_dropWhile_not (!closes ·) opened
    split at h
    · contradiction
    · next last rest hclosed =>
      cases h
      rw [hclosed] at hinit hlast
      refine ⟨ls.takeWhile (!opens f ·), _, last, by rw [hinit, hpassed], rfl,
        fun k hk => by simpa using List.all_eq_true.mp List.all_takeWhile k hk,
        fun k hk => by simpa using List.all_eq_true.mp List.all_takeWhile k hk,
        by simpa using hlast, ?_⟩
      intro l hl
      have hopened : opened.head? = some l := by
        rw [← hinit]
        simpa using hl
      simpa [hopened] using hhead
  · rintro ⟨passed, init, last, rfl, rfl, hpassed, hinit, hlast, hhead⟩
    have hopened : (init ++ last :: behind).dropWhile (!opens f ·) = init ++ last :: behind := by
      cases init with
      | nil => exact List.dropWhile_cons_of_neg (by simpa using hhead)
      | cons l init => exact List.dropWhile_cons_of_neg (by simpa using hhead)
    rw [nextBlock?, List.dropWhile_append_of_pos (by simpa using hpassed), hopened,
      List.dropWhile_append_of_pos (by simpa using hinit),
      List.dropWhile_cons_of_neg (by simp [hlast]),
      List.takeWhile_append_of_pos (by simpa using hinit),
      List.takeWhile_cons_of_neg (by simp [hlast]), List.append_nil]

/-- There is no block when no line closes from the first opening line on. -/
theorem nextBlock?_eq_none_iff {f : Family} {ls : List Text} :
    nextBlock? f ls = none ↔ ∀ k ∈ ls.dropWhile (!opens f ·), closes k = false := by
  have hnil : (ls.dropWhile (!opens f ·)).dropWhile (!closes ·) = [] ↔
      ∀ k ∈ ls.dropWhile (!opens f ·), closes k = false := by
    simp [List.dropWhile_eq_nil_iff]
  rw [nextBlock?, ← hnil]
  split
  · next heq => simp [heq]
  · next heq => simp [heq]

/-- A block is not empty, so fewer lines are left behind it. -/
theorem length_lt_of_nextBlock? {f : Family} {ls block behind : List Text}
    (h : nextBlock? f ls = some (block, behind)) : behind.length < ls.length := by
  obtain ⟨passed, init, last, rfl, -⟩ := nextBlock?_eq_some_iff.mp h
  simp only [List.length_append, List.length_cons]
  omega

/-- The blocks of the lines, in order. -/
def blocks (f : Family) (ls : List Text) : List (List Text) :=
  match _h : nextBlock? f ls with
  | none => []
  | some (block, behind) => block :: blocks f behind
termination_by ls.length
decreasing_by exact length_lt_of_nextBlock? _h

/-- The lines behind the last block, from the next opening line on. -/
def unfinished (f : Family) (ls : List Text) : List Text :=
  match _h : nextBlock? f ls with
  | none => ls.dropWhile (!opens f ·)
  | some (_, behind) => unfinished f behind
termination_by ls.length
decreasing_by exact length_lt_of_nextBlock? _h

theorem blocks_of_none {f : Family} {ls : List Text} (h : nextBlock? f ls = none) :
    blocks f ls = [] := by
  rw [blocks]
  split
  · rfl
  · next heq => simp [h] at heq

theorem blocks_of_some {f : Family} {ls block behind : List Text}
    (h : nextBlock? f ls = some (block, behind)) :
    blocks f ls = block :: blocks f behind := by
  rw [blocks]
  split
  · next heq => simp [h] at heq
  · next heq =>
    rw [h] at heq
    cases heq
    rfl

theorem unfinished_of_none {f : Family} {ls : List Text} (h : nextBlock? f ls = none) :
    unfinished f ls = ls.dropWhile (!opens f ·) := by
  rw [unfinished]
  split
  · rfl
  · next heq => simp [h] at heq

theorem unfinished_of_some {f : Family} {ls block behind : List Text}
    (h : nextBlock? f ls = some (block, behind)) :
    unfinished f ls = unfinished f behind := by
  rw [unfinished]
  split
  · next heq => simp [h] at heq
  · next heq =>
    rw [h] at heq
    cases heq
    rfl

/-- Lines behind a block do not change it. -/
theorem nextBlock?_append {f : Family} {ls block behind : List Text}
    (h : nextBlock? f ls = some (block, behind)) (more : List Text) :
    nextBlock? f (ls ++ more) = some (block, behind ++ more) := by
  obtain ⟨passed, init, last, rfl, rest⟩ := nextBlock?_eq_some_iff.mp h
  exact nextBlock?_eq_some_iff.mpr ⟨passed, init, last, by simp, rest⟩

/-- Only the lines from the first opening line on count. -/
theorem blocks_congr {f : Family} {ls ks : List Text}
    (h : ls.dropWhile (!opens f ·) = ks.dropWhile (!opens f ·)) :
    blocks f ls = blocks f ks ∧ unfinished f ls = unfinished f ks := by
  have hnext : nextBlock? f ls = nextBlock? f ks := by rw [nextBlock?, nextBlock?, h]
  cases hk : nextBlock? f ks with
  | none =>
    rw [hk] at hnext
    rw [blocks_of_none hnext, blocks_of_none hk, unfinished_of_none hnext, unfinished_of_none hk]
    exact ⟨rfl, h⟩
  | some next =>
    rw [hk] at hnext
    rw [blocks_of_some hnext, blocks_of_some hk, unfinished_of_some hnext, unfinished_of_some hk]
    exact ⟨rfl, rfl⟩

/-- The blocks of the lines are those of a front part, and then those of the lines behind it
together with what the front part leaves unfinished. -/
theorem blocks_append (f : Family) (ls more : List Text) :
    blocks f (ls ++ more) = blocks f ls ++ blocks f (unfinished f ls ++ more) ∧
      unfinished f (ls ++ more) = unfinished f (unfinished f ls ++ more) := by
  induction ls using blocks.induct f with
  | case1 ls hb =>
    have hpassed : (ls.dropWhile (!opens f ·) ++ more).dropWhile (!opens f ·) =
        (ls ++ more).dropWhile (!opens f ·) := by
      rw [List.dropWhile_append, List.dropWhile_append, List.dropWhile_idempotent]
    rw [blocks_of_none hb, unfinished_of_none hb, List.nil_append]
    exact blocks_congr hpassed.symm
  | case2 ls block behind hb ih =>
    have hnext := nextBlock?_append hb more
    rw [blocks_of_some hb, unfinished_of_some hb, blocks_of_some hnext, unfinished_of_some hnext,
      ih.1, ih.2]
    exact ⟨rfl, rfl⟩

/-- What is left unfinished stands at the end of the lines, begins with an opening line and
has no closing line. -/
theorem of_unfinished (f : Family) (ls : List Text) :
    unfinished f ls <:+ ls ∧ (∀ l ∈ (unfinished f ls).head?, opens f l = true) ∧
      ∀ k ∈ unfinished f ls, closes k = false := by
  induction ls using blocks.induct f with
  | case1 ls hb =>
    rw [unfinished_of_none hb]
    refine ⟨List.dropWhile_suffix _, ?_, nextBlock?_eq_none_iff.mp hb⟩
    intro l hl
    have hhead := List.head?_dropWhile_not (!opens f ·) ls
    rw [Option.mem_def.mp hl] at hhead
    simpa using hhead
  | case2 ls block behind hb ih =>
    obtain ⟨passed, init, last, rfl, -⟩ := nextBlock?_eq_some_iff.mp hb
    rw [unfinished_of_some hb]
    refine ⟨ih.1.trans ?_, ih.2⟩
    exact ⟨passed ++ (init ++ [last]), by simp⟩

/-- Every block begins on an opening line at which no declaration is open, and none of its
lines but the last is a closing line. -/
theorem exists_split_of_mem_blocks {f : Family} {ls block : List Text} (h : block ∈ blocks f ls) :
    ∃ before l rest behind, ls = before ++ (l :: rest ++ behind) ∧ block = l :: rest ∧
      opens f l = true ∧ unfinished f before = [] ∧ ∀ k ∈ block.dropLast, closes k = false := by
  induction ls using blocks.induct f with
  | case1 ls hb =>
    rw [blocks_of_none hb] at h
    contradiction
  | case2 ls first behind hb ih =>
    obtain ⟨passed, init, last, rfl, rfl, hpassed, hinit, hlast, hhead⟩ :=
      nextBlock?_eq_some_iff.mp hb
    rw [blocks_of_some hb] at h
    rcases List.mem_cons.mp h with rfl | h
    · obtain ⟨l, rest, hl⟩ := List.exists_cons_of_ne_nil (l := init ++ [last]) (by simp)
      have hnil : passed.dropWhile (!opens f ·) = [] :=
        List.dropWhile_eq_nil_iff.mpr (by simpa using hpassed)
      have hnone : nextBlock? f passed = none := nextBlock?_eq_none_iff.mpr (by simp [hnil])
      exact ⟨passed, l, rest, behind, by simp [← hl], hl, hhead l (by simp [hl]),
        by rw [unfinished_of_none hnone, hnil], by simpa using hinit⟩
    · obtain ⟨before, l, rest, after, rfl, hblock, hl, hclosed, hopen⟩ := ih h
      have hfirst : nextBlock? f (passed ++ (init ++ last :: before)) =
          some (init ++ [last], before) :=
        nextBlock?_eq_some_iff.mpr ⟨passed, init, last, rfl, rfl, hpassed, hinit, hlast, hhead⟩
      exact ⟨passed ++ (init ++ last :: before), l, rest, after, by simp, hblock, hl,
        by rw [unfinished_of_some hfirst, hclosed], hopen⟩

/-- Lines that open and close a declaration are blocks on their own. -/
theorem blocks_of_opens_closes {f : Family} {ls : List Text}
    (h : ∀ l ∈ ls, opens f l = true ∧ closes l = true) :
    blocks f ls = ls.map ([·]) ∧ unfinished f ls = [] := by
  induction ls with
  | nil => exact ⟨blocks_of_none rfl, unfinished_of_none rfl⟩
  | cons l ls ih =>
    obtain ⟨ho, hc⟩ := h l (List.mem_cons_self ..)
    obtain ⟨hblocks, hrest⟩ := ih fun k hk => h k (List.mem_cons_of_mem l hk)
    have hnext : nextBlock? f (l :: ls) = some ([l], ls) := by
      simp [nextBlock?, ho, hc]
    rw [blocks_of_some hnext, unfinished_of_some hnext, hblocks, hrest]
    exact ⟨rfl, rfl⟩

/-- An open declaration takes every line up to its closing line, and is read there. -/
theorem foldlM_step_of_pending (f : Family) {pending : List Text} (hp : pending ≠ [])
    (found : List Prototype) (ls : List Text) :
    ls.foldlM (Scan.step f) ⟨pending, found⟩ =
      match ls.dropWhile (!closes ·) with
      | [] => .ok ⟨ls.reverse ++ pending, found⟩
      | last :: behind =>
        Declaration.read (pending.reverse ++ (ls.takeWhile (!closes ·) ++ [last])) >>= fun p =>
          behind.foldlM (Scan.step f) ⟨[], p :: found⟩ := by
  induction ls generalizing pending with
  | nil => rfl
  | cons l ls ih =>
    have hne : pending.isEmpty = false := by simpa using hp
    cases hc : closes l with
    | true =>
      simp only [List.foldlM_cons, Scan.step, hne, Bool.false_and, Bool.false_eq_true,
        ↓reduceIte, hc, Bool.not_true, List.dropWhile_cons_of_neg, List.takeWhile_cons_of_neg,
        not_false_eq_true, List.nil_append, List.reverse_cons]
      cases Declaration.read (pending.reverse ++ [l]) <;> rfl
    | false =>
      have hstep : Scan.step f ⟨pending, found⟩ l = .ok ⟨l :: pending, found⟩ := by
        simp [Scan.step, hne, hc]
      rw [List.foldlM_cons, hstep, ok_bind, ih (List.cons_ne_nil l pending),
        List.dropWhile_cons_of_pos (by simp [hc]), List.takeWhile_cons_of_pos (by simp [hc])]
      simp only [List.reverse_cons, List.append_assoc, List.cons_append, List.nil_append]

/-- Between declarations the scan passes over lines up to the next opening line and reads
the block that begins there. -/
theorem foldlM_step_of_idle (f : Family) (found : List Prototype) (ls : List Text) :
    ls.foldlM (Scan.step f) ⟨[], found⟩ =
      match nextBlock? f ls with
      | none => .ok ⟨(ls.dropWhile (!opens f ·)).reverse, found⟩
      | some (block, behind) =>
        Declaration.read block >>= fun p => behind.foldlM (Scan.step f) ⟨[], p :: found⟩ := by
  induction ls with
  | nil => rfl
  | cons l ls ih =>
    cases ho : opens f l with
    | false =>
      have hstep : Scan.step f ⟨[], found⟩ l = .ok ⟨[], found⟩ := by simp [Scan.step, ho]
      have hdrop : (l :: ls).dropWhile (!opens f ·) = ls.dropWhile (!opens f ·) :=
        List.dropWhile_cons_of_pos (by simp [ho])
      rw [List.foldlM_cons, hstep, ok_bind, ih, nextBlock?, nextBlock?, hdrop]
    | true =>
      have hdrop : (l :: ls).dropWhile (!opens f ·) = l :: ls :=
        List.dropWhile_cons_of_neg (by simp [ho])
      -- an opening line is treated like any other line of an open declaration
      have hstep : Scan.step f ⟨[], found⟩ l =
          if closes l then (Declaration.read [l]).map fun p => ⟨[], p :: found⟩
          else .ok ⟨[l], found⟩ := by simp [Scan.step, ho]
      rw [List.foldlM_cons, hstep, nextBlock?, hdrop]
      cases hc : closes l with
      | true => simp [hc, map_eq_bind]
      | false =>
        simp [hc, foldlM_step_of_pending f (List.cons_ne_nil l [])]
        cases ls.dropWhile (!closes ·) <;> rfl

/-- The scan reads the blocks in order and is left with the unfinished rest. -/
theorem foldlM_step_eq_mapM (f : Family) (found : List Prototype) (ls : List Text) :
    ls.foldlM (Scan.step f) ⟨[], found⟩ =
      (blocks f ls).mapM Declaration.read >>= fun ps =>
        .ok ⟨(unfinished f ls).reverse, ps.reverse ++ found⟩ := by
  induction ls using blocks.induct f generalizing found with
  | case1 ls hb =>
    rw [foldlM_step_of_idle, hb, blocks_of_none hb, unfinished_of_none hb]
    rfl
  | case2 ls block behind hb ih =>
    rw [foldlM_step_of_idle, hb, blocks_of_some hb, unfinished_of_some hb, List.mapM_cons]
    cases hr : Declaration.read block with
    | error e => simp [hr]
    | ok p => simp [hr, ih]

/-- A header declares what its blocks declare, provided that no declaration is left open. -/
theorem declared_eq_blocks (f : Family) (ls : List Text) :
    declared f ls = (blocks f ls).mapM Declaration.read >>= fun ps =>
      if unfinished f ls = [] then .ok ps
      else .error (.unterminated (unfinished f ls).flatten) := by
  rw [declared, foldlM_step_eq_mapM, bind_assoc]
  congr 1
  funext ps
  simp [Scan.finish]

end HeaderCards.Header
