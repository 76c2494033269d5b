import HeaderCards.Proofs.Header.Bounds
import HeaderCards.Proofs.Header.Layout
import HeaderCards.Proofs.Prototype.Breaks

/-!
# Wrapped prototypes

A prototype may be cut into lines. The scan puts the lines of a declaration together again, so a
cut that neither moves the opening of the declaration nor ends it early makes no difference. The
lines of a kernel header are trimmed before they are joined, so there white space gets lost where
a line ends; behind a comma it belongs to no argument.
-/

namespace HeaderCards.Header

open Declaration

variable {f : Family}

/-- Lines of which only the last may close the declaration that the first one opens are read
together. -/
theorem declared_single {init : List Text} {last : Text}
    (hopens : ∀ l ∈ (init ++ [last]).head?, opens f l = true)
    (hinit : ∀ l ∈ init, closes l = false) :
    declared f (init ++ [last]) =
      if closes last = true then (Declaration.read (init ++ [last])).map ([·])
      else .error (.unterminated (init ++ [last]).flatten) := by
  cases hlast : closes last with
  | true =>
    have hnext : nextBlock? f (init ++ [last]) = some (init ++ [last], []) :=
      nextBlock?_eq_some_iff.mpr ⟨[], init, last, rfl, rfl, by simp, hinit, hlast, hopens⟩
    rw [declared_eq_blocks, blocks_of_some hnext, unfinished_of_some hnext, blocks_of_none rfl,
      unfinished_of_none rfl, List.mapM_cons, List.mapM_nil]
    cases Declaration.read (init ++ [last]) with
    | error e => rfl
    | ok p => simp [pure, Except.pure]
  | false =>
    have hopen : ∀ l ∈ init ++ [last], closes l = false := by
      simpa [or_imp, forall_and, hlast] using hinit
    have hdrop : (init ++ [last]).dropWhile (!opens f ·) = init ++ [last] := by
      obtain ⟨l, ls, hcons⟩ := List.exists_cons_of_ne_nil (l := init ++ [last]) (by simp)
      rw [hcons] at hopens ⊢
      exact List.dropWhile_cons_of_neg (by simp [hopens l rfl])
    have hnone : nextBlock? f (init ++ [last]) = none := by
      rw [nextBlock?_eq_none_iff, hdrop]
      exact hopen
    rw [declared_eq_blocks, blocks_of_none hnone, unfinished_of_none hnone, hdrop]
    simp

/-- A declaration that no line but the last may close is read as if it stood on one line. -/
theorem declared_flatten {init : List Text} {last : Text}
    (hopens : ∀ l ∈ (init ++ [last]).head?, opens f l = true)
    (hinit : ∀ l ∈ init, closes l = false) :
    declared f [(init ++ [last]).flatten] = declared f (init ++ [last]) := by
  have hclosed : closes (init ++ [last]).flatten = closes last := by
    clear hopens
    induction init with
    | nil => simp
    | cons l init ih =>
      obtain ⟨hl, hinit⟩ := List.forall_mem_cons.mp hinit
      rw [List.cons_append, List.flatten_cons, closes_append hl, ih hinit]
  have hopened : opens f (init ++ [last]).flatten = true := by
    obtain ⟨l, ls, hcons⟩ := List.exists_cons_of_ne_nil (l := init ++ [last]) (by simp)
    rw [hcons] at hopens ⊢
    exact opens_append (hopens l rfl) ls.flatten
  have hone := @declared_single f [] (init ++ [last]).flatten
    (by simpa using hopened) (by simp)
  rw [List.nil_append] at hone
  rw [hone, declared_single hopens hinit, hclosed, List.flatten_singleton,
    read_congr (List.flatten_singleton)]

/-- White space behind a comma that stands behind the opening of a kernel is not read. -/
theorem read_behind_opening {a ret gap stem w b : Text} {p : Prototype}
    (ha : OpensKernel a ret gap stem) (hcomma : [','] <:+ a) (hw : Text.isBlank w = true)
    (hends : [';'] <:+ b) (hline : Text.OneLine (a ++ (w ++ b)))
    (h : Declaration.read [a ++ (w ++ b)] = .ok p) : Declaration.read [a ++ b] = .ok p := by
  have hcalls := ha.calls_mend
  have hspace : ∃ c ∈ mend a, Text.isSpace c = true := by
    obtain ⟨-, ⟨hgap, hblank⟩, -⟩ := ha
    obtain ⟨-, after, behind, -, hmend⟩ := hcalls
    obtain ⟨g, gap, rfl⟩ := List.exists_cons_of_ne_nil hgap
    rw [Text.isBlank_cons, Bool.and_eq_true] at hblank
    exact ⟨g, by rw [hmend]; simp, hblank.1⟩
  cases hname : functionName? (mend a) with
  | none => exact absurd hcalls (functionName?_eq_none_iff.mp hname _ _)
  | some name => exact read_blank_behind_comma ha.visible hcomma hname hspace hw hends hline h

/-- A kernel declaration is read alike when its pieces are trimmed that stand behind a comma.
The pieces in front of them are put together, so that the induction is on the others. -/
theorem read_map_trim {a ret gap stem : Text} {init : List Text} {last : Text} {p : Prototype}
    (ha : OpensKernel a ret gap stem) (hcomma : [','] <:+ a) (hinit : ∀ q ∈ init, [','] <:+ q)
    (hlast : [';'] <:+ last) (hline : Text.OneLine (a ++ (init ++ [last]).flatten))
    (h : Declaration.read [a ++ (init ++ [last]).flatten] = .ok p) :
    Declaration.read [a ++ ((init ++ [last]).map Text.trim).flatten] = .ok p := by
  induction init generalizing a with
  | nil =>
    obtain ⟨w, hw, hsplit, hends⟩ := Text.exists_trim_of_isSuffix (by decide) hlast
    rw [List.nil_append, List.flatten_singleton, hsplit] at h hline
    rw [List.nil_append, List.map_singleton, List.flatten_singleton]
    exact read_behind_opening ha hcomma hw hends hline h
  | cons q init ih =>
    obtain ⟨hq, hinit⟩ := List.forall_mem_cons.mp hinit
    obtain ⟨w, hw, hsplit, hends⟩ := Text.exists_trim_of_isSuffix (by decide) hq
    have hrest : [';'] <:+ (init ++ [last]).flatten := by
      rw [List.flatten_append, List.flatten_singleton]
      exact hlast.trans (List.suffix_append _ _)
    rw [List.cons_append, List.flatten_cons, hsplit, List.append_assoc] at h hline
    have hstep := read_behind_opening ha hcomma hw (hrest.trans (List.suffix_append _ _)) hline h
    rw [← List.append_assoc] at hstep
    have hline' : Text.OneLine ((a ++ Text.trim q) ++ (init ++ [last]).flatten) := by
      refine hline.of_subset ?_
      rw [List.append_assoc]
      exact List.append_subset.mpr ⟨List.subset_append_left _ _,
        List.Subset.trans (List.subset_append_right w _) (List.subset_append_right _ _)⟩
    have hlater := ih (ha.append _) (hends.trans (List.suffix_append _ _)) hinit hline' hstep
    rwa [List.append_assoc] at hlater

/-- A line that opens a kernel declaration has nothing to trim when its end is visible. -/
theorem trim_of_opens {e : Char} {l : Text} (he : Text.isSpace e = false)
    (hopens : opens .blas l = true) (h : [e] <:+ l) : Text.trim l = l := by
  obtain ⟨ret, gap, stem, hkernel⟩ := opensKernel_iff.mp hopens
  obtain ⟨c, cs, rfl⟩ := List.exists_cons_of_ne_nil (h.ne_nil (List.cons_ne_nil e []))
  obtain ⟨front, hfront⟩ := h
  exact Text.trim_eq_self (hkernel.visible c rfl) he rfl hfront.symm

/-- The first piece of a kernel declaration has nothing to trim. -/
theorem trim_of_mem_head? {init : List Text} {last : Text}
    (hopens : ∀ l ∈ (init ++ [last]).head?, opens .blas l = true)
    (hinit : ∀ l ∈ init, [','] <:+ l) (hlast : [';'] <:+ last) :
    ∀ l ∈ (init ++ [last]).head?, Text.trim l = l := by
  cases init with
  | nil =>
    rintro l ⟨⟩
    exact trim_of_opens (by decide) (hopens last rfl) hlast
  | cons first init =>
    rintro l ⟨⟩
    exact trim_of_opens (by decide) (hopens first rfl) (hinit first (List.mem_cons_self ..))

/-- A kernel declaration is read alike when it is cut behind commas and its pieces are trimmed. -/
theorem read_of_cut {init : List Text} {last : Text} {p : Prototype}
    (hopens : ∀ l ∈ (init ++ [last]).head?, opens .blas l = true)
    (hinit : ∀ l ∈ init, [','] <:+ l) (hlast : [';'] <:+ last)
    (hline : Text.OneLine (init ++ [last]).flatten)
    (h : Declaration.read (init ++ [last]) = .ok p) :
    Declaration.read ((init ++ [last]).map Text.trim) = .ok p := by
  have htrim := trim_of_mem_head? hopens hinit hlast
  cases init with
  | nil => rwa [List.nil_append, List.map_singleton, htrim last rfl]
  | cons first init =>
    obtain ⟨hfirst, hinit⟩ := List.forall_mem_cons.mp hinit
    obtain ⟨ret, gap, stem, hkernel⟩ := opensKernel_iff.mp (hopens first rfl)
    have hjoined : Declaration.read [first ++ (init ++ [last]).flatten] = .ok p := by
      rw [← h]
      exact read_congr (by simp)
    have hread := read_map_trim hkernel hfirst hinit hlast hline hjoined
    rw [← hread]
    refine read_congr ?_
    rw [List.cons_append, List.map_cons, htrim first rfl]
    simp

/-- What is declared on one line is declared by its trimmed pieces. -/
theorem declared_map_trim {init : List Text} {last : Text} {ps : List Prototype}
    (hopens : ∀ l ∈ (init ++ [last]).head?, opens .blas l = true)
    (hinit : ∀ l ∈ init, [','] <:+ l) (hlast : [';'] <:+ last)
    (hline : Text.OneLine (init ++ [last]).flatten)
    (h : declared .blas [(init ++ [last]).flatten] = .ok ps) :
    declared .blas ((init ++ [last]).map Text.trim) = .ok ps := by
  have hopen : ∀ l ∈ init, closes l = false := fun l hl =>
    closes_of_isSuffix (by decide) (hinit l hl)
  have hend : ∀ {e : Char} {l : Text}, Text.isSpace e = false → [e] <:+ l →
      closes (Text.trim l) = decide (e = ';') := fun he hl => by
    obtain ⟨-, -, -, hsuffix⟩ := Text.exists_trim_of_isSuffix he hl
    exact closes_of_isSuffix he hsuffix
  have hclosed : closes last = true := closes_of_isSuffix (by decide) hlast
  have hclosed' : closes (Text.trim last) = true := hend (by decide) hlast
  have hopens' : ∀ l ∈ ((init ++ [last]).map Text.trim).head?, opens .blas l = true := by
    rw [List.head?_map]
    intro l hl
    obtain ⟨k, hk, rfl⟩ := Option.map_eq_some_iff.mp hl
    rw [trim_of_mem_head? hopens hinit hlast k hk]
    exact hopens k hk
  have hopen' : ∀ l ∈ init.map Text.trim, closes l = false := by
    intro l hl
    obtain ⟨q, hq, rfl⟩ := List.mem_map.mp hl
    exact hend (by decide) (hinit q hq)
  rw [declared_flatten hopens hopen, declared_single hopens hopen,
    if_pos hclosed, map_eq_ok_iff] at h
  obtain ⟨p, hread, rfl⟩ := h
  have hread' := read_of_cut hopens hinit hlast hline hread
  rw [List.map_append, List.map_singleton] at hopens' hread' ⊢
  rw [declared_single hopens' hopen', if_pos hclosed', hread', map_ok]

/-- What follows the opening of a kernel declaration does not make it a banner. -/
theorem banner_isPrefix_of_opens {l t : Text} (hopens : opens .blas l = true)
    (h : banner <+: l ++ t) : banner <+: l := by
  obtain ⟨ret, gap, stem, -, -, -, -, after, behind, -, rfl⟩ := opensKernel_iff.mp hopens
  have hsplit : ∀ v : Text, (ret ++ gap) ++ ((Family.blas.opening ++ stem) ++ (after ++ '(' :: v)) =
      ((ret ++ gap) ++ ((Family.blas.opening ++ stem) ++ after)) ++ '(' :: v := fun v => by simp
  rw [hsplit, List.append_assoc, List.cons_append] at h
  rw [hsplit]
  exact (Text.isPrefix_of_append_cons (by decide) h).trans (List.prefix_append _ _)

/-- A declaration that opens on a line without a banner is no banner and no marker. -/
theorem not_banner_of_flatten {init : List Text} {last : Text}
    (hopens : ∀ l ∈ (init ++ [last]).head?, opens .blas l = true)
    (hfirst : ∀ l ∈ (init ++ [last]).head?, ¬ banner <+: l) :
    ¬ banner <+: (init ++ [last]).flatten ∧ (init ++ [last]).flatten ≠ regionStart := by
  obtain ⟨first, rest, hcons⟩ := List.exists_cons_of_ne_nil (l := init ++ [last]) (by simp)
  rw [hcons] at hopens hfirst ⊢
  rw [List.flatten_cons]
  refine ⟨fun h => hfirst first rfl (banner_isPrefix_of_opens (hopens first rfl) h), fun h => ?_⟩
  have hopened := opens_append (hopens first rfl) rest.flatten
  rw [h] at hopened
  exact absurd hopened (by decide)

/-- The pieces of a solver declaration on lines of their own declare what they declare on one
line, with the same errors. -/
theorem prototypes_lapack_wrapped {t u : Text} {init : List Text} {last : Text}
    (ht : Text.lines t = init ++ [last]) (hu : Text.lines u = [(init ++ [last]).flatten])
    (hopens : ∀ l ∈ (init ++ [last]).head?, opens .lapack l = true)
    (hinit : ∀ l ∈ init, closes l = false) : prototypes .lapack t = prototypes .lapack u := by
  rw [prototypes, prototypes, declarationLines, declarationLines, ht, hu,
    declared_flatten hopens hinit]

/-- The pieces of a kernel declaration that is cut behind commas, on lines of their own, declare
what they declare on one line. -/
theorem prototypes_blas_wrapped {t u : Text} {init : List Text} {last : Text} {ps : List Prototype}
    (ht : visibleLines t = (init ++ [last]).map Text.trim)
    (hu : visibleLines u = [(init ++ [last]).flatten])
    (hopens : ∀ l ∈ (init ++ [last]).head?, opens .blas l = true)
    (hinit : ∀ l ∈ init, [','] <:+ l) (hlast : [';'] <:+ last)
    (hplain : ∀ l ∈ init ++ [last], ¬ banner <+: Text.trim l ∧ Text.trim l ≠ regionStart)
    (h : prototypes .blas u = .ok ps) : prototypes .blas t = .ok ps := by
  have hvisible : ∀ l ∈ visibleLines t, ¬ banner <+: l ∧ l ≠ regionStart := by
    rw [ht]
    intro l hl
    obtain ⟨k, hk, rfl⟩ := List.mem_map.mp hl
    exact hplain k hk
  -- the joined line opens like its first piece
  have hvisible' : ∀ l ∈ visibleLines u, ¬ banner <+: l ∧ l ≠ regionStart := by
    rw [hu]
    intro l hl
    rw [List.mem_singleton.mp hl]
    refine not_banner_of_flatten hopens fun k hk => ?_
    have hbanner := (hplain k (List.mem_of_mem_head? hk)).1
    rwa [trim_of_mem_head? hopens hinit hlast k hk] at hbanner
  have hline : Text.OneLine (init ++ [last]).flatten :=
    oneLine_of_mem_visibleLines (hu ▸ List.mem_singleton_self _)
  rw [prototypes, declared_visibleLines hvisible', hu, map_eq_ok_iff] at h
  obtain ⟨qs, hdeclared, rfl⟩ := h
  rw [prototypes, declared_visibleLines hvisible, ht,
    declared_map_trim hopens hinit hlast hline hdeclared, map_ok]

/-- Wrapping a prototype does not change it. A solver declaration may be cut anywhere as long as
its opening stays together and no piece but the last ends in a semicolon; the outcome is the same,
errors included. A kernel declaration that is read may be cut behind the commas of its argument
list, with any white space and blank lines around the pieces, as long as none of them becomes a
banner or a marker. -/
theorem prototypes_wrapped {t u : Text} {init : List Text} {last : Text} :
    (Text.lines t = init ++ [last] → Text.lines u = [(init ++ [last]).flatten] →
      (∀ l ∈ (init ++ [last]).head?, opens .lapack l = true) →
      (∀ l ∈ init, ¬ [';'] <:+ Text.trimEnd l) → prototypes .lapack t = prototypes .lapack u) ∧
    (visibleLines t = (init ++ [last]).map Text.trim →
      visibleLines u = [(init ++ [last]).flatten] →
      (∀ l ∈ (init ++ [last]).head?, opens .blas l = true) →
      (∀ l ∈ init, [','] <:+ l) → [';'] <:+ last →
      (∀ l ∈ init ++ [last], ¬ banner <+: Text.trim l ∧ Text.trim l ≠ regionStart) →
      ∀ ps, prototypes .blas u = .ok ps → prototypes .blas t = .ok ps) := by
  refine ⟨fun ht hu hopens hinit => ?_, fun ht hu hopens hinit hlast hplain ps h => ?_⟩
  · refine prototypes_lapack_wrapped ht hu hopens fun l hl => ?_
    rw [closes, ← Bool.not_eq_true, Text.endsWith_iff]
    exact hinit l hl
  · exact prototypes_blas_wrapped ht hu hopens hinit hlast hplain h

/-- A solver declaration that is cut inside a word and in front of a star. -/
def solverPieces : List Text :=
  ["lapack_int LAPACKE_a".toList, "b (int n, float".toList, "*b".toList]

/-- A kernel declaration that is cut behind both of its commas. -/
def kernelPieces : List Text := ["void cblas_a(int n,".toList, " float *b,".toList]

/-- The solver declaration is wrapped between blanks, and the kernel declaration between blank
lines with white space at the ends of its pieces. -/
theorem prototypes_of_wrapped :
    prototypes .lapack (Text.unlines solverPieces ++ ") ;") =
      .ok [⟨"LAPACKE_ab", "lapack_int", [⟨"int", "n"⟩, ⟨"float*", "b"⟩]⟩] ∧
    prototypes .blas "\n  void cblas_a(int n, \r\n\n\tfloat *b,\n \n int m); \n" =
      .ok [⟨"cblas_a", "void", [⟨"int", "n"⟩, ⟨"float*", "b"⟩, ⟨"int", "m"⟩]⟩] := by
  have hsolver : prototypes .lapack "lapack_int LAPACKE_ab (int n, float*b) ;" =
      .ok [⟨"LAPACKE_ab", "lapack_int", [⟨"int", "n"⟩, ⟨"float*", "b"⟩]⟩] := by
    decide +kernel
  have hkernel : prototypes .blas "void cblas_a(int n, float *b, int m);" =
      .ok [⟨"cblas_a", "void", [⟨"int", "n"⟩, ⟨"float*", "b"⟩, ⟨"int", "m"⟩]⟩] := by
    decide +kernel
  constructor
  · rw [← hsolver]
    exact (@prototypes_wrapped _ _ solverPieces ") ;").1 (by decide +kernel)
      (by decide +kernel) (by decide +kernel) (by decide +kernel)
  · exact (@prototypes_wrapped _ _ kernelPieces " int m);").2 (by decide +kernel)
      (by decide +kernel) (by decide +kernel) (by decide +kernel) (by decide +kernel)
      (by decide +kernel) _ hkernel

end HeaderCards.Header
