import HeaderCards.Proofs.Header.Openings
import HeaderCards.Proofs.Text.Lines

/-!
# Headers one after the other

A header that ends with a line can be followed by another one. The lines of both are scanned
as they are on their own, provided that no marker line bounds the region that counts. When
nothing is left open in the first header, the second is read as if it stood alone, but for the
names that are taken already; and a declaration that cannot be read fails the first header
whatever follows it.
-/

namespace HeaderCards.Header

variable {f : Family}

/-- No line of a kernel header bounds the region that counts. -/
def Unbounded (f : Family) (t : Text) : Prop :=
  f = .blas → ∀ l ∈ Text.lines t, Text.trim l ≠ regionStart ∧ Text.trim l ≠ regionEnd

instance (f : Family) (t : Text) : Decidable (Unbounded f t) :=
  inferInstanceAs (Decidable (f = .blas → _))

theorem Unbounded.append {a b : Text} (ha : Text.WholeLines a) (hua : Unbounded f a)
    (hub : Unbounded f b) : Unbounded f (a ++ b) := by
  intro hf l hl
  rw [Text.lines_append ha] at hl
  exact (List.mem_append.mp hl).elim (hua hf l) (hub hf l)

/-- Without markers all lines of a kernel header count, banners apart. -/
theorem declarationLines_blas {t : Text} (h : Unbounded .blas t) :
    declarationLines .blas t =
      ((Text.lines t).map Text.trim).filter (!Text.startsWith · banner) := by
  have hstart : regionStart ∉ (Text.lines t).map Text.trim := by
    intro hmem
    obtain ⟨l, hl, htrim⟩ := List.mem_map.mp hmem
    exact (h rfl l hl).1 htrim
  have hend : ∀ k ∈ (Text.lines t).map Text.trim, decide (k ≠ regionEnd) = true := by
    intro k hk
    obtain ⟨l, hl, rfl⟩ := List.mem_map.mp hk
    exact decide_eq_true (h rfl l hl).2
  rw [declarationLines, if_neg hstart, List.takeWhile_eq_self_iff.mpr hend]

/-- The declaration lines of the first header stand in front of those of the second. -/
theorem declarationLines_append {a b : Text} (ha : Text.WholeLines a) (hua : Unbounded f a)
    (hub : Unbounded f b) :
    declarationLines f (a ++ b) = declarationLines f a ++ declarationLines f b := by
  cases f with
  | blas =>
    rw [declarationLines_blas (hua.append ha hub), declarationLines_blas hua,
      declarationLines_blas hub, Text.lines_append ha, List.map_append, List.filter_append]
  | lapack => exact Text.lines_append ha b

/-- Behind lines that leave nothing open, lines are cut into blocks as they are on their own. -/
theorem blocks_append_of_settled {ls : List Text} (h : Settled f ls) (more : List Text) :
    blocks f (ls ++ more) = blocks f ls ++ blocks f more ∧
      unfinished f (ls ++ more) = unfinished f more := by
  obtain ⟨hblocks, hrest⟩ := blocks_append f ls more
  rw [unfinished_eq_nil_iff.mpr h, List.nil_append] at hblocks hrest
  exact ⟨hblocks, hrest⟩

/-- Lines on which no declaration begins hold no blocks. -/
theorem blocks_of_not_opens {ls : List Text} (h : ∀ l ∈ ls, opens f l = false) :
    blocks f ls = [] ∧ Settled f ls := by
  have hdrop : ls.dropWhile (!opens f ·) = [] := List.dropWhile_eq_nil_iff.mpr (by simpa using h)
  have hnone : nextBlock? f ls = none := nextBlock?_eq_none_iff.mpr (by simp [hdrop])
  exact ⟨blocks_of_none hnone,
    unfinished_eq_nil_iff.mp (by rw [unfinished_of_none hnone, hdrop])⟩

/-- Only the blocks of a header and the lines left unfinished count. -/
theorem prototypes_congr {t u : Text}
    (hblocks : blocks f (declarationLines f t) = blocks f (declarationLines f u))
    (hrest : unfinished f (declarationLines f t) = unfinished f (declarationLines f u)) :
    prototypes f t = prototypes f u := by
  rw [prototypes_eq_blocks, prototypes_eq_blocks, hblocks, hrest]

/-- A header fails on one of its blocks, unless it fails for what is left unfinished. -/
theorem mapM_read_of_error {t : Text} {e : DeclarationError} (h : prototypes f t = .error e)
    (he : ∀ u, e ≠ .unterminated u) :
    (blocks f (declarationLines f t)).mapM Declaration.read = .error e := by
  rw [prototypes_eq_blocks] at h
  cases hread : (blocks f (declarationLines f t)).mapM Declaration.read with
  | error e' => simpa [hread] using h
  | ok ps =>
    rw [hread, ok_bind] at h
    split at h
    · contradiction
    · cases h
      exact absurd rfl (he _)

/-- A header behind another one that can be read is read on its own. What the whole declares
is what the first declares, and behind that what the second declares under new names. -/
theorem prototypes_append_of_ok {a b : Text} {ps : List Prototype} (ha : Text.WholeLines a)
    (hua : Unbounded f a) (hub : Unbounded f b) (h : prototypes f a = .ok ps) :
    prototypes f (a ++ b) =
      (prototypes f b).map fun qs => ps ++ qs.filter (·.name ∉ ps.map (·.name)) := by
  obtain ⟨as, has, hclosed, rfl⟩ := prototypes_eq_ok_iff.mp h
  obtain ⟨hblocks, hrest⟩ := blocks_append_of_settled (unfinished_eq_nil_iff.mp hclosed)
    (declarationLines f b)
  rw [prototypes_eq_blocks, prototypes_eq_blocks, declarationLines_append ha hua hub, hblocks,
    hrest, List.mapM_append, mapM_eq_ok_iff.mpr has, ok_bind]
  cases (blocks f (declarationLines f b)).mapM Declaration.read with
  | error e => rfl
  | ok bs =>
    simp only [ok_bind, pure, Except.pure]
    split
    · rw [map_ok, List.filter_append, Prototype.distinct_append]
    · rfl

/-- A header whose declarations fail keeps failing for the same reason, whatever follows. -/
theorem prototypes_append_of_error {a b : Text} {e : DeclarationError} (ha : Text.WholeLines a)
    (hua : Unbounded f a) (hub : Unbounded f b) (h : prototypes f a = .error e)
    (he : ∀ u, e ≠ .unterminated u) : prototypes f (a ++ b) = .error e := by
  rw [prototypes_eq_blocks, declarationLines_append ha hua hub, (blocks_append f _ _).1,
    List.mapM_append, mapM_read_of_error h he, error_bind, error_bind]

/-- Where no declaration is open, text without declarations makes no difference. -/
theorem prototypes_insert {a t b : Text} (ha : Text.WholeLines a) (hua : Unbounded f a)
    (hub : Unbounded f b) (ht : Text.WholeLines t) (hut : Unbounded f t)
    (hidle : ∀ l ∈ declarationLines f t, opens f l = false)
    (hsettled : Settled f (declarationLines f a)) :
    prototypes f (a ++ t ++ b) = prototypes f (a ++ b) := by
  obtain ⟨hnone, hclosed⟩ := blocks_of_not_opens hidle
  obtain ⟨htb, htb'⟩ := blocks_append_of_settled hclosed (declarationLines f b)
  obtain ⟨hab, hab'⟩ := blocks_append_of_settled hsettled (declarationLines f b)
  obtain ⟨hatb, hatb'⟩ := blocks_append_of_settled hsettled
    (declarationLines f t ++ declarationLines f b)
  have hlines : declarationLines f (a ++ t ++ b) =
      declarationLines f a ++ (declarationLines f t ++ declarationLines f b) := by
    rw [declarationLines_append (ha.append ht) (hua.append ha hut) hub,
      declarationLines_append ha hua hut, List.append_assoc]
  apply prototypes_congr
  · rw [hlines, declarationLines_append ha hua hub, hatb, hab, htb, hnone, List.nil_append]
  · rw [hlines, declarationLines_append ha hua hub, hatb', hab', htb']

/-- What two headers declare one after the other. When the first can be read, the second decides:
it fails the whole, or adds what it declares under names that are not taken. When the first fails
on a declaration that is complete, so does the whole. Where no declaration is open, text without
declarations can be inserted. -/
theorem prototypes_concatenated {a b : Text} (ha : Text.WholeLines a) (hua : Unbounded f a)
    (hub : Unbounded f b) :
    (∀ ps, prototypes f a = .ok ps →
      (∀ e, prototypes f b = .error e → prototypes f (a ++ b) = .error e) ∧
      ∀ qs, prototypes f b = .ok qs →
        prototypes f (a ++ b) = .ok (ps ++ qs.filter (·.name ∉ ps.map (·.name)))) ∧
    (∀ e, prototypes f a = .error e → (∀ u, e ≠ .unterminated u) →
      prototypes f (a ++ b) = .error e) ∧
    ∀ t, Text.WholeLines t → Unbounded f t → (∀ l ∈ declarationLines f t, opens f l = false) →
      Settled f (declarationLines f a) → prototypes f (a ++ t ++ b) = prototypes f (a ++ b) := by
  refine ⟨fun ps hps => ?_, fun e => prototypes_append_of_error ha hua hub,
    fun t ht hut => prototypes_insert ha hua hub ht hut⟩
  have happend := prototypes_append_of_ok ha hua hub hps
  constructor
  · intro e he
    rw [happend, he, map_error]
  · intro qs hqs
    rw [happend, hqs, map_ok]

/-- A kernel header with a prototype over three lines. -/
def kernelHeader : Text :=
  "typedef int blasint;\r\nvoid cblas_a(blasint n,\r\n  float\r\n  *b);\r\n"

/-- Another one, with a banner, which declares the same name and a second one. -/
def laterKernelHeader : Text :=
  "/*** Level 2 ***/\nvoid cblas_a(blasint m);\ndouble cblas_b(double * x);"

/-- A kernel header with a declaration that cannot be read. -/
def brokenKernelHeader : Text := "void cblas_c(blasint n, );\n"

/-- Lines of a kernel header that declare nothing. -/
def kernelComment : Text := "\n/* without cblas_d(int n); */\n"

/-- The name that both headers declare is kept from the first, a declaration that cannot be read
fails the whole from either place, and a comment between the two is passed over. -/
theorem prototypes_of_kernel_headers :
    prototypes .blas (kernelHeader ++ laterKernelHeader) =
      .ok [⟨"cblas_a", "void", [⟨"blasint", "n"⟩, ⟨"float*", "b"⟩]⟩,
        ⟨"cblas_b", "double", [⟨"double*", "x"⟩]⟩] ∧
    prototypes .blas (kernelHeader ++ brokenKernelHeader) = .error (.emptyArgument "cblas_c") ∧
    prototypes .blas (brokenKernelHeader ++ kernelHeader) = .error (.emptyArgument "cblas_c") ∧
    prototypes .blas (kernelHeader ++ kernelComment ++ laterKernelHeader) =
      prototypes .blas (kernelHeader ++ laterKernelHeader) := by
  have hfirst : prototypes .blas kernelHeader =
      .ok [⟨"cblas_a", "void", [⟨"blasint", "n"⟩, ⟨"float*", "b"⟩]⟩] := by
    decide +kernel
  have hlater : prototypes .blas laterKernelHeader =
      .ok [⟨"cblas_a", "void", [⟨"blasint", "m"⟩]⟩,
        ⟨"cblas_b", "double", [⟨"double*", "x"⟩]⟩] := by
    decide +kernel
  have hbroken : prototypes .blas brokenKernelHeader = .error (.emptyArgument "cblas_c") := by
    decide +kernel
  have hunbounded : ∀ t ∈ [kernelHeader, laterKernelHeader, brokenKernelHeader, kernelComment],
      Unbounded .blas t := by
    decide +kernel
  simp only [List.forall_mem_cons] at hunbounded
  obtain ⟨hfront, hbehind, hunread, hcomment, -⟩ := hunbounded
  have hwhole : Text.WholeLines kernelHeader := by decide +kernel
  obtain ⟨hok, -, hinsert⟩ := prototypes_concatenated hwhole hfront hbehind
  obtain ⟨hread, -, -⟩ := prototypes_concatenated hwhole hfront hunread
  obtain ⟨-, herror, -⟩ := prototypes_concatenated (by decide +kernel) hunread hfront
  exact ⟨(hok _ hfirst).2 _ hlater, (hread _ hfirst).1 _ hbroken, herror _ hbroken (by simp),
    hinsert kernelComment (by decide +kernel) hcomment (by decide +kernel) (by decide +kernel)⟩

end HeaderCards.Header
