import HeaderCards.Proofs.Header.Prototypes

/-!
# Opening lines

A header declares a function on every line with the family's opening pattern, but not each of
these lines begins a declaration of its own. One that comes while another declaration is open is
swallowed: the scan takes it for more text of that declaration, the function it declares is not
returned, and the header may still be read without an error. A declaration is over only on a line
that ends in a semicolon, so a comment behind the semicolon is enough to lose the next function.

Which lines are safe can be told from the lines in front: no declaration is open when every
opening line among them is followed by a closing line. The results tell which functions are lost
in this way and which are not.
-/

namespace HeaderCards.Header

variable {f : Family}

/-- Every opening line of the lines closes itself or is followed by a closing line. -/
def Settled (f : Family) (ls : List Text) : Prop :=
  ∀ m between, m :: between <:+ ls → opens f m = true → ∃ k ∈ m :: between, closes k = true

/-- Nothing is left unfinished of the lines exactly when every opening line is followed by a
closing line. -/
theorem unfinished_eq_nil_iff {ls : List Text} : unfinished f ls = [] ↔ Settled f ls := by
  constructor
  · rintro h m between ⟨earlier, rfl⟩ hm
    by_contra hopen
    -- what the earlier lines leave open runs over the opening line to the end
    obtain ⟨-, -, hearlier⟩ := of_unfinished f earlier
    have hclosed : ∀ k ∈ unfinished f earlier ++ m :: between, closes k = false := by
      intro k hk
      rcases List.mem_append.mp hk with hk | hk
      · exact hearlier k hk
      · simpa using fun hc => hopen ⟨k, hk, hc⟩
    have hnext : nextBlock? f (unfinished f earlier ++ m :: between) = none :=
      nextBlock?_eq_none_iff.mpr fun k hk => hclosed k ((List.dropWhile_sublist _).subset hk)
    rw [(blocks_append f earlier _).2, unfinished_of_none hnext, List.dropWhile_eq_nil_iff] at h
    simpa [hm] using h m (by simp)
  · intro h
    obtain ⟨hsuffix, hhead, hclosed⟩ := of_unfinished f ls
    cases hrest : unfinished f ls with
    | nil => rfl
    | cons m between =>
      rw [hrest] at hsuffix hhead hclosed
      obtain ⟨k, hk, hc⟩ := h m between hsuffix (hhead m rfl)
      simp [hclosed k hk] at hc

instance (ls : List Text) : Decidable (Settled f ls) :=
  decidable_of_iff _ unfinished_eq_nil_iff

/-- The block that is next at an opening line begins on that line and ends on the first
closing line from there on. -/
theorem of_nextBlock?_of_opens {l : Text} {after block behind : List Text}
    (hl : opens f l = true) (h : nextBlock? f (l :: after) = some (block, behind)) :
    block.head? = some l ∧ ∃ init last, l :: after = init ++ last :: behind ∧
      block = init ++ [last] ∧ (∀ k ∈ init, closes k = false) ∧ closes last = true := by
  obtain ⟨passed, init, last, heq, rfl, hpassed, hinit, hlast, -⟩ :=
    nextBlock?_eq_some_iff.mp h
  cases passed with
  | nil =>
    refine ⟨?_, init, last, heq, rfl, hinit, hlast⟩
    cases init with
    | nil => exact congrArg some (List.cons.inj heq).1.symm
    | cons k init => exact congrArg some (List.cons.inj heq).1.symm
  | cons k passed =>
    obtain ⟨rfl, -⟩ := List.cons.inj heq
    simp [hpassed l (List.mem_cons_self ..)] at hl

/-- A declaration that is open at an opening line swallows the block of that line. -/
theorem nextBlock?_open_append {pending after block behind : List Text} {l : Text}
    (hhead : ∀ m ∈ pending.head?, opens f m = true) (hpending : ∀ k ∈ pending, closes k = false)
    (hl : opens f l = true) (h : nextBlock? f (l :: after) = some (block, behind)) :
    nextBlock? f (pending ++ l :: after) = some (pending ++ block, behind) := by
  obtain ⟨hfirst, init, last, heq, rfl, hinit, hlast⟩ := of_nextBlock?_of_opens hl h
  refine nextBlock?_eq_some_iff.mpr
    ⟨[], pending ++ init, last, by simp [heq], by simp, by simp, ?_, hlast, ?_⟩
  · intro k hk
    rcases List.mem_append.mp hk with hk | hk
    · exact hpending k hk
    · exact hinit k hk
  · cases pending with
    | nil => simpa [hfirst] using hl
    | cons m pending => simpa using hhead

/-- At an opening line the block is cut that begins on it or, when the lines in front leave a
declaration open, the one that swallows it. -/
theorem blocks_at_opening {before after : List Text} {l : Text} (hl : opens f l = true)
    (h : unfinished f (before ++ l :: after) = []) :
    ∃ rest behind, nextBlock? f (l :: after) = some (l :: rest, behind) ∧
      blocks f (before ++ l :: after) =
        blocks f before ++ (unfinished f before ++ l :: rest) :: blocks f behind := by
  obtain ⟨k, hk, hc⟩ := unfinished_eq_nil_iff.mp h l after ⟨before, rfl⟩ hl
  cases hnext : nextBlock? f (l :: after) with
  | none =>
    rw [nextBlock?_eq_none_iff, List.dropWhile_cons_of_neg (by simp [hl])] at hnext
    simp [hnext k hk] at hc
  | some next =>
    obtain ⟨block, behind⟩ := next
    obtain ⟨rest, rfl⟩ := List.head?_eq_some_iff.mp (of_nextBlock?_of_opens hl hnext).1
    obtain ⟨-, hhead, hopen⟩ := of_unfinished f before
    exact ⟨rest, behind, rfl, by rw [(blocks_append f before _).1,
      blocks_of_some (nextBlock?_open_append hhead hopen hl hnext)]⟩

/-- Where all blocks in front can be read, the scan has read them and holds the lines that
they leave unfinished. -/
theorem foldlM_step_of_read {before : List Text} {ps : List Prototype}
    (h : (blocks f before).map Declaration.read = ps.map .ok) :
    before.foldlM (Scan.step f) {} = .ok ⟨(unfinished f before).reverse, ps.reverse⟩ := by
  rw [foldlM_step_eq_mapM, mapM_eq_ok_iff.mpr h, ok_bind, List.append_nil]

/-- A supported prototype that stands among others is among the distinct supported ones, or
one of its name is that stands in front. -/
theorem mem_distinct_supported (ps : List Prototype) {p : Prototype} (qs : List Prototype)
    (h : Supported f p) :
    p ∈ Prototype.distinct ((ps ++ p :: qs).filter (Supported f ·)) ∨
      ∃ q ∈ ps, q ∈ Prototype.distinct ((ps ++ p :: qs).filter (Supported f ·)) ∧
        q.name = p.name := by
  rw [List.filter_append, List.filter_cons_of_pos (by simpa using h)]
  rcases Prototype.mem_distinct_append_cons (ps.filter (Supported f ·)) p
      (qs.filter (Supported f ·)) with hmem | ⟨q, hq, hmem, hname⟩
  · exact .inl hmem
  · exact .inr ⟨q, (List.mem_filter.mp hq).1, hmem, hname⟩

/-- In a header that can be read, an opening line begins a declaration of its own exactly
when every opening line in front of it is followed by a closing line; otherwise the declaration
that is open swallows it, and the two are read as one. Either way the declaration with the line
ends on the first closing line from there on, and its prototype is returned unless it is
unsupported or its name is taken. Each prototype returned comes from the lines of a declaration
begun in this way, and at each of the further lines that declaration is still open. -/
theorem prototypes_by_openings {t : Text} {ps : List Prototype} (h : prototypes f t = .ok ps) :
    (∀ before l after, declarationLines f t = before ++ l :: after → opens f l = true →
      ∃ s rest behind p, before.foldlM (Scan.step f) {} = .ok s ∧
        (s.pending = [] ↔ Settled f before) ∧
        nextBlock? f (l :: after) = some (l :: rest, behind) ∧
        Declaration.read (s.pending.reverse ++ l :: rest) = .ok p ∧
        (Supported f p → p ∈ ps ∨ ∃ q ∈ s.found, q ∈ ps ∧ q.name = p.name)) ∧
    ∀ p ∈ ps, ∃ before l rest behind, declarationLines f t = before ++ (l :: rest ++ behind) ∧
      opens f l = true ∧ Settled f before ∧ Declaration.read (l :: rest) = .ok p ∧
      ∀ inside k more, rest = inside ++ k :: more → ¬ Settled f (before ++ l :: inside) := by
  obtain ⟨all, hall, hclosed, rfl⟩ := prototypes_eq_ok_iff.mp h
  constructor
  · intro before l after hlines hl
    rw [hlines] at hclosed hall
    obtain ⟨rest, behind, hnext, hblocks⟩ := blocks_at_opening hl hclosed
    -- the prototypes fall into those read before the line, the one read with it, and later ones
    rw [hblocks, List.map_append, List.map_cons] at hall
    obtain ⟨earlier, others, rfl, hearlier, hothers⟩ := List.map_eq_append_iff.mp hall.symm
    obtain ⟨p, later, rfl, hp, -⟩ := List.map_eq_cons_iff.mp hothers
    refine ⟨_, rest, behind, p, foldlM_step_of_read hearlier.symm, ?_, hnext, ?_, ?_⟩
    · rw [List.reverse_eq_nil_iff, unfinished_eq_nil_iff]
    · rw [List.reverse_reverse, hp]
    · intro hsupported
      simpa only [List.mem_reverse] using mem_distinct_supported earlier later hsupported
  · intro p hp
    have hpall : p ∈ all := (List.mem_filter.mp ((Prototype.distinct_sublist _).subset hp)).1
    obtain ⟨block, hblock, hread⟩ := exists_of_mem_mapM (mapM_eq_ok_iff.mpr hall) hpall
    obtain ⟨before, l, rest, behind, hlines, rfl, hl, hnone, hopen⟩ :=
      exists_split_of_mem_blocks hblock
    refine ⟨before, l, rest, behind, hlines, hl, unfinished_eq_nil_iff.mp hnone, hread, ?_⟩
    rintro inside k more rfl hinside
    obtain ⟨m, hm, hc⟩ := hinside l inside (List.suffix_append ..) hl
    have hfront : m ∈ (l :: (inside ++ k :: more)).dropLast := by
      rw [← List.cons_append, List.dropLast_append_cons]
      exact List.mem_append_left _ hm
    simp [hopen m hfront] at hc

/-- The lines of a header with a wrapped declaration and a comment. -/
def wrappedLines : List Text :=
  ["lapack_int LAPACKE_a(int x,".toList, "  float *b);".toList, "/* solves */".toList]

/-- A line that opens and closes a declaration. -/
def closedLine : Text := "lapack_int LAPACKE_b(int y);"

/-- Behind a wrapped declaration and a comment the closed line is a declaration of its own,
and what it declares is returned. -/
theorem prototypes_of_closed_behind_wrapped :
    ∃ ps, prototypes .lapack (Text.unlines (wrappedLines ++ [closedLine])) = .ok ps ∧
      ps.length = 2 ∧
      (∃ s p, wrappedLines.foldlM (Scan.step .lapack) {} = .ok s ∧ s.pending = [] ∧
        Declaration.read [closedLine] = .ok p ∧
        (p ∈ ps ∨ ∃ q ∈ s.found, q ∈ ps ∧ q.name = p.name)) ∧
      ∀ p ∈ ps, ∃ l rest, opens .lapack l = true ∧ Declaration.read (l :: rest) = .ok p := by
  have hread : prototypes .lapack (Text.unlines (wrappedLines ++ [closedLine])) =
      .ok [⟨"LAPACKE_a", "lapack_int", [⟨"int", "x"⟩, ⟨"float*", "b"⟩]⟩,
        ⟨"LAPACKE_b", "lapack_int", [⟨"int", "y"⟩]⟩] := by
    decide +kernel
  have hclosed : Declaration.read [closedLine] =
      .ok ⟨"LAPACKE_b", "lapack_int", [⟨"int", "y"⟩]⟩ := by
    decide +kernel
  obtain ⟨hopening, horigin⟩ := prototypes_by_openings hread
  obtain ⟨s, rest, behind, p, hs, hsettled, hnext, hp, hkept⟩ :=
    hopening wrappedLines closedLine [] (by decide +kernel) (by decide +kernel)
  have hpending : s.pending = [] := hsettled.mpr (by decide +kernel)
  have hrest : nextBlock? .lapack [closedLine] = some ([closedLine], []) := by decide +kernel
  rw [hrest] at hnext
  cases hnext
  rw [hpending, List.reverse_nil, List.nil_append] at hp
  refine ⟨_, hread, rfl, ⟨s, p, hs, hpending, hp, hkept ?_⟩, ?_⟩
  · rw [hclosed] at hp
    cases hp
    decide +kernel
  · intro q hq
    obtain ⟨before, l, rest, behind, -, hl, -, hread, -⟩ := horigin q hq
    exact ⟨l, rest, hl, hread⟩

/-- A line whose declaration ends in front of a comment. -/
def commentedLine : Text := "lapack_int LAPACKE_a(int x); /* solves */"

/-- A declared function gets lost: the commented line does not end in a semicolon, so its
declaration is still open at the closed line and swallows it. There is no error, the second
function is missing, and the first has the text of both declarations for the type of its
argument. -/
theorem closed_inside_commented :
    prototypes .lapack (Text.unlines [commentedLine, closedLine]) =
      .ok [⟨"LAPACKE_a", "lapack_int",
        [⟨"int x); /* solves*/lapack_int LAPACKE_b(int", "y"⟩]⟩] ∧
    declarationLines .lapack (Text.unlines [commentedLine, closedLine]) =
      [commentedLine, closedLine] ∧
    opens .lapack closedLine = true ∧
    [commentedLine].foldlM (Scan.step .lapack) {} = .ok ⟨[commentedLine], []⟩ ∧
    blocks .lapack [commentedLine, closedLine] = [[commentedLine, closedLine]] := by
  decide +kernel

end HeaderCards.Header
