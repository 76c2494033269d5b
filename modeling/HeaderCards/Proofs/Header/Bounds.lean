import HeaderCards.Header
import HeaderCards.Proofs.Prototype.Call
import HeaderCards.Proofs.Prototype.TypeText

/-!
# Lines that open and close declarations

A kernel declaration opens with a return type and, behind white space, with a call of a name that
has the family's opening. Whatever follows an opening, the line still opens the declaration; and
what stands in front of the end of a line does not tell whether it closes one.
-/

namespace HeaderCards.Header

open Declaration

/-- The line opens with this return type, and behind white space with a call of the kernel. -/
def OpensKernel (line ret gap stem : Text) : Prop :=
  (ret ≠ [] ∧ Text.Solid ret) ∧ (gap ≠ [] ∧ Text.isBlank gap = true) ∧
    (stem ≠ [] ∧ ∀ c ∈ stem, Text.isWord c = true) ∧
      Calls line (ret ++ gap) (Family.blas.opening ++ stem)

/-- A kernel's name is an identifier. -/
theorem isIdentifier_opening_append {stem : Text} (h : ∀ c ∈ stem, Text.isWord c = true) :
    Text.IsIdentifier (Family.blas.opening ++ stem) := by
  have hopening : ∀ c ∈ "blas_".toList, Text.isWord c = true :=
    List.all_eq_true.mp (by decide +kernel)
  exact ⟨'c', "blas_" ++ stem, rfl, by decide, List.forall_mem_append.mpr ⟨hopening, h⟩⟩

/-- What the check of a line looks at, where the line has three parts. -/
private theorem opensKernel_append {ret gap rest : Text} (hsolid : Text.Solid ret)
    (hgap : gap ≠ [] ∧ Text.isBlank gap = true) (hrest : ∀ c ∈ rest.head?, Text.isSpace c = false) :
    (ret ++ (gap ++ rest)).takeWhile (!Text.isSpace ·) = ret ∧
      (ret ++ (gap ++ rest)).dropWhile (!Text.isSpace ·) = gap ++ rest ∧
        Text.trimStart (gap ++ rest) = rest ∧ rest ≠ gap ++ rest := by
  obtain ⟨hne, hblank⟩ := hgap
  have htrim : Text.trimStart (gap ++ rest) = rest := by
    rw [Text.trimStart_blank_append hblank]
    cases rest with
    | nil => rfl
    | cons c rest => exact Text.trimStart_cons_of_visible (hrest c rfl) rest
  obtain ⟨g, gap, rfl⟩ := List.exists_cons_of_ne_nil hne
  rw [Text.isBlank_cons, Bool.and_eq_true] at hblank
  obtain ⟨htype, hbehind⟩ := Text.span_append (p := (!Text.isSpace ·)) (a := ret)
    (b := (g :: gap) ++ rest) (fun c hc => by simp [hsolid c hc]) (by simp [hblank.1])
  refine ⟨htype, hbehind, htrim, fun heq => ?_⟩
  have hlength := congrArg List.length heq
  simp only [List.length_append, List.length_cons] at hlength
  omega

/-- A line that passes the check opens a kernel declaration. -/
theorem exists_opensKernel {line : Text} (h : opensKernel line = true) :
    ∃ ret gap stem, OpensKernel line ret gap stem := by
  simp only [opensKernel, Bool.and_eq_true, Bool.not_eq_true', List.isEmpty_eq_false_iff,
    decide_eq_true_eq, and_assoc] at h
  obtain ⟨hret, hgap, hcall⟩ := h
  split at hcall
  · contradiction
  · next rest hname =>
    rw [Text.dropStart?_eq_some_iff] at hname
    obtain ⟨gap, hblank, hafter⟩ := Text.exists_trimStart (line.dropWhile (!Text.isSpace ·))
    rw [Bool.and_eq_true, Bool.not_eq_true', List.isEmpty_eq_false_iff] at hcall
    obtain ⟨hstem, hopens⟩ := hcall
    obtain ⟨after, behind, hafter', hrest⟩ := opensCall_iff.mp hopens
    have hword : ∀ c ∈ rest.takeWhile Text.isWord, Text.isWord c = true :=
      List.all_eq_true.mp List.all_takeWhile
    refine ⟨line.takeWhile (!Text.isSpace ·), gap, rest.takeWhile Text.isWord,
      ⟨hret, fun c hc => by simpa using List.mem_takeWhile_imp hc⟩, ⟨?_, hblank⟩,
      ⟨hstem, hword⟩, isIdentifier_opening_append hword, after, behind, hafter', ?_⟩
    · rintro rfl
      exact hgap hafter.symm
    · calc line = line.takeWhile (!Text.isSpace ·) ++ line.dropWhile (!Text.isSpace ·) :=
            List.takeWhile_append_dropWhile.symm
        _ = line.takeWhile (!Text.isSpace ·) ++ (gap ++ (Family.blas.opening ++
            (rest.takeWhile Text.isWord ++ rest.dropWhile Text.isWord))) := by
          rw [List.takeWhile_append_dropWhile (l := rest), ← hname, ← hafter]
        _ = _ := by simp only [hrest, List.append_assoc]

/-- The check made of a line decides whether it opens a kernel declaration. -/
theorem opensKernel_iff {line : Text} :
    opensKernel line = true ↔ ∃ ret gap stem, OpensKernel line ret gap stem := by
  refine ⟨exists_opensKernel, ?_⟩
  rintro ⟨ret, gap, stem, ⟨hret, hsolid⟩, hgap, ⟨hstem, hword⟩, -, after, behind, hafter, rfl⟩
  have hfront : ∀ c ∈ (Family.blas.opening ++ (stem ++ (after ++ '(' :: behind))).head?,
      Text.isSpace c = false := by
    rintro c ⟨⟩
    decide
  obtain ⟨htype, hbehind, hname, hne⟩ := opensKernel_append hsolid hgap hfront
  obtain ⟨hstem', hend⟩ := Text.span_append hword (isWord_of_gap hafter behind)
  rw [List.append_assoc, List.append_assoc]
  simp only [opensKernel, htype, hbehind, hname, Text.dropStart?_eq_some_iff.mpr rfl, hstem', hend,
    Bool.and_eq_true, Bool.not_eq_true', List.isEmpty_eq_false_iff, decide_eq_true_eq]
  exact ⟨⟨hret, hne⟩, hstem, opensCall_iff.mpr ⟨after, behind, hafter, rfl⟩⟩

namespace OpensKernel

variable {line ret gap stem : Text} (h : OpensKernel line ret gap stem)

include h

/-- Whatever follows, the line still opens the declaration. -/
theorem append (t : Text) : OpensKernel (line ++ t) ret gap stem := by
  obtain ⟨hret, hgap, hstem, hname, after, behind, hafter, rfl⟩ := h
  exact ⟨hret, hgap, hstem, hname, after, behind ++ t, hafter, by simp⟩

/-- The line begins with a visible character. -/
theorem visible : ∀ c ∈ line.head?, Text.isSpace c = false := by
  obtain ⟨⟨hret, hsolid⟩, -, -, -, after, behind, -, rfl⟩ := h
  obtain ⟨r, ret, rfl⟩ := List.exists_cons_of_ne_nil hret
  rintro c ⟨⟩
  exact hsolid r (List.mem_cons_self ..)

/-- Mending reaches the return type and what stands between the parentheses. The white space and
the call between the two are kept. -/
theorem calls_mend : Calls (mend line) (mend ret ++ gap) (Family.blas.opening ++ stem) := by
  obtain ⟨-, ⟨hgap, hblank⟩, -, hname, after, behind, hafter, rfl⟩ := h
  have hstar : ∀ {v : Text}, Text.isBlank v = true → '*' ∉ v := fun hv hmem =>
    absurd (List.all_eq_true.mp hv '*' hmem) (by decide)
  obtain ⟨g, gap, rfl⟩ := List.exists_cons_of_ne_nil hgap
  rw [Text.isBlank_cons, Bool.and_eq_true] at hblank
  have hg : g ∉ "float*b".toList := fun hmem => by
    have hsolid : Text.Solid "float*b".toList := by decide
    exact absurd hblank.1 (by rw [hsolid g hmem]; decide)
  generalize Family.blas.opening ++ stem = name at hname
  have hkeep : mend (gap ++ (name ++ after)) = gap ++ (name ++ after) := by
    refine Text.replace_of_not_infix _ fun hi => ?_
    have hmem : '*' ∈ gap ++ (name ++ after) := hi.subset (by decide)
    simp only [List.mem_append] at hmem
    rcases hmem with hmem | hmem | hmem
    · exact hstar hblank.2 hmem
    · exact hname.not_mem (by decide) hmem
    · exact hstar hafter hmem
  refine ⟨hname, after, mend behind, hafter, ?_⟩
  calc mend ((ret ++ g :: gap) ++ (name ++ (after ++ '(' :: behind)))
      = mend (ret ++ g :: ((gap ++ (name ++ after)) ++ '(' :: behind)) := by simp
    _ = mend ret ++ g :: ((gap ++ (name ++ after)) ++ '(' :: mend behind) := by
      rw [mend_append_cons hg, mend_append_cons (by decide), hkeep]
    _ = (mend ret ++ g :: gap) ++ (name ++ (after ++ '(' :: mend behind)) := by simp

end OpensKernel

variable {f : Family}

/-- A line that opens a declaration does so whatever follows. -/
theorem opens_append {l : Text} (h : opens f l = true) (t : Text) : opens f (l ++ t) = true := by
  cases f with
  | blas =>
    obtain ⟨ret, gap, stem, hopens⟩ := opensKernel_iff.mp h
    exact opensKernel_iff.mpr ⟨ret, gap, stem, hopens.append t⟩
  | lapack =>
    exact Text.startsWith_iff.mpr ((Text.startsWith_iff.mp h).trans (List.prefix_append l t))

/-- A line closes a declaration with a semicolon that only white space follows. -/
theorem closes_iff {l : Text} :
    closes l = true ↔ ∃ front w, Text.isBlank w = true ∧ l = front ++ ';' :: w := by
  rw [closes, Text.endsWith_iff]
  constructor
  · rintro ⟨front, hfront⟩
    obtain ⟨w, hw, hl⟩ := Text.exists_trimEnd l
    exact ⟨front, w, hw, by rw [hl, ← hfront]; simp⟩
  · rintro ⟨front, w, hw, rfl⟩
    have hsplit : front ++ ';' :: w = (front ++ [';']) ++ w := by simp
    rw [hsplit, Text.trimEnd_append_blank hw, Text.trimEnd_append_of_visible (by decide)]
    exact List.suffix_append front [';']

/-- Behind text that does not close a declaration, a line closes it when its end does. -/
theorem closes_append {a : Text} (ha : closes a = false) (b : Text) :
    closes (a ++ b) = closes b := by
  rw [Bool.eq_iff_iff, closes_iff, closes_iff]
  constructor
  · rintro ⟨front, w, hw, h⟩
    rcases List.append_eq_append_iff.mp h with ⟨v, rfl, hv⟩ | ⟨v, rfl, hv⟩
    · exact ⟨v, w, hw, hv⟩
    · cases v with
      | nil => exact ⟨[], w, hw, hv.symm⟩
      | cons d v =>
        rw [List.cons_append] at hv
        obtain ⟨rfl, rfl⟩ := List.cons.inj hv
        rw [Text.isBlank_append, Bool.and_eq_true] at hw
        have hclosed : closes (front ++ ';' :: v) = true := closes_iff.mpr ⟨front, v, hw.1, rfl⟩
        rw [hclosed] at ha
        contradiction
  · rintro ⟨front, w, hw, rfl⟩
    exact ⟨a ++ front, w, hw, by simp⟩

/-- A visible character at the end tells whether a line closes a declaration. -/
theorem closes_of_isSuffix {c : Char} {l : Text} (hc : Text.isSpace c = false) (h : [c] <:+ l) :
    closes l = decide (c = ';') := by
  obtain ⟨front, rfl⟩ := h
  rw [closes, Text.trimEnd_append_of_visible hc, Bool.eq_iff_iff, Text.endsWith_iff,
    decide_eq_true_iff]
  constructor
  · rintro ⟨front', h⟩
    exact (List.cons.inj (List.append_inj' h rfl).2).1.symm
  · rintro rfl
    exact List.suffix_append front _

end HeaderCards.Header
