import HeaderCards.Proofs.Header.Concatenation
import HeaderCards.Proofs.Prototype.Printed

/-!
# Layout

The lines of a declaration are joined without anything between them, so where it is cut into
lines makes no difference to what is read of it, and empty lines make no difference at all. They
can be left out of a scan: with and without them it finds the same, and the lines of an open
declaration are the same but for the empty ones.
-/

namespace HeaderCards.Header

variable {f : Family}

/-- What is read of a declaration depends on its joined lines. -/
theorem read_congr {ls ks : List Text} (h : ls.flatten = ks.flatten) :
    Declaration.read ls = Declaration.read ks := by
  have htext : Declaration.textOf ls = Declaration.textOf ks := by
    rw [Declaration.textOf, Declaration.textOf, h]
  rw [Declaration.read, Declaration.read, htext]

theorem opens_nil (f : Family) : opens f [] = false := by
  cases f <;> decide

theorem closes_nil : closes [] = false := by decide

/-- The scan without the empty lines of the declaration that is open. -/
def Scan.dense (s : Scan) : Scan := { s with pending := s.pending.filter (· ≠ []) }

theorem Scan.dense_cons {l : Text} (hl : l ≠ []) (s : Scan) :
    dense ⟨l :: s.pending, s.found⟩ = ⟨l :: s.dense.pending, s.found⟩ := by
  simp [dense, hl]

/-- A declaration that is open has a line that is not empty. -/
def Scan.Begun (s : Scan) : Prop := s.dense.pending = [] → s.pending = []

theorem Scan.Begun.isEmpty_dense {s : Scan} (h : s.Begun) :
    s.dense.pending.isEmpty = s.pending.isEmpty := by
  rw [Bool.eq_iff_iff, List.isEmpty_iff, List.isEmpty_iff]
  exact ⟨h, fun hnil => by rw [dense, hnil, List.filter_nil]⟩

/-- Without empty lines, joining the lines of the open declaration gives the same. -/
theorem Scan.flatten_dense (s : Scan) :
    s.dense.pending.reverse.flatten = s.pending.reverse.flatten := by
  rw [dense, ← List.filter_reverse]
  exact List.flatten_filter_ne_nil

/-- An empty line is no more than a line of the declaration that is open. -/
theorem Scan.step_nil {s : Scan} (h : s.Begun) :
    ∃ s', Scan.step f s [] = .ok s' ∧ s'.dense = s.dense ∧ s'.Begun := by
  by_cases hnil : s.pending = []
  · exact ⟨s, by simp [step, hnil, opens_nil], rfl, h⟩
  · refine ⟨{ s with pending := [] :: s.pending }, by simp [step, hnil, closes_nil], ?_, ?_⟩
    · simp [dense]
    · intro hdense
      exact absurd (h (by simpa [dense] using hdense)) hnil

/-- A line that is not empty is read alike with and without the empty ones before it. -/
theorem Scan.step_dense {s : Scan} (h : s.Begun) {l : Text} (hl : l ≠ []) :
    Scan.step f s.dense l = (Scan.step f s l).map dense ∧
      ∀ s', Scan.step f s l = .ok s' → s'.Begun := by
  by_cases hidle : s.pending.isEmpty && !opens f l
  · simp only [step, h.isEmpty_dense, hidle, if_true, map_ok, true_and]
    rintro s' ⟨⟩
    exact h
  have hread : Declaration.read (l :: s.dense.pending).reverse =
      Declaration.read (l :: s.pending).reverse := by
    refine read_congr ?_
    rw [List.reverse_cons, List.reverse_cons, List.flatten_append, List.flatten_append,
      s.flatten_dense]
  simp only [step, h.isEmpty_dense, hidle, hread]
  cases hc : closes l with
  | true =>
    cases Declaration.read (l :: s.pending).reverse with
    | error e => simp
    | ok p =>
      refine ⟨rfl, ?_⟩
      rintro s' ⟨⟩
      exact fun _ => rfl
  | false =>
    refine ⟨congrArg Except.ok (dense_cons hl s).symm, ?_⟩
    rintro s' ⟨⟩ hnil
    rw [dense_cons hl] at hnil
    contradiction

/-- The scan ends alike with and without the empty lines. -/
theorem Scan.finish_dense {s : Scan} (h : s.Begun) : s.dense.finish = s.finish := by
  rw [finish, finish, h.isEmpty_dense, s.flatten_dense, dense]

/-- Empty lines can be left out of a scan. -/
theorem foldlM_step_dense {s : Scan} (h : s.Begun) (ls : List Text) :
    (ls.filter (· ≠ [])).foldlM (Scan.step f) s.dense >>= Scan.finish =
      ls.foldlM (Scan.step f) s >>= Scan.finish := by
  induction ls generalizing s with
  | nil => exact Scan.finish_dense h
  | cons l ls ih =>
    by_cases hl : l = []
    · obtain ⟨s', hstep, hdense, hbegun⟩ := Scan.step_nil (f := f) h
      rw [List.filter_cons_of_neg (by simpa using hl), List.foldlM_cons, hl, hstep, ok_bind,
        ← ih hbegun, hdense]
    · obtain ⟨hstep, hbegun⟩ := Scan.step_dense (f := f) h hl
      rw [List.filter_cons_of_pos (by simpa using hl), List.foldlM_cons, List.foldlM_cons, hstep]
      cases hs : Scan.step f s l with
      | error e => rfl
      | ok s' => exact ih (hbegun s' hs)

/-- Empty lines declare nothing. -/
theorem declared_filter (f : Family) (ls : List Text) :
    declared f (ls.filter (· ≠ [])) = declared f ls :=
  foldlM_step_dense (s := {}) (fun _ => rfl) ls

/-- The trimmed lines of a text, without the blank ones. -/
def visibleLines (t : Text) : List Text := ((Text.lines t).map Text.trim).filter (· ≠ [])

theorem oneLine_of_mem_visibleLines {t l : Text} (h : l ∈ visibleLines t) : Text.OneLine l := by
  obtain ⟨k, hk, rfl⟩ := List.mem_map.mp (List.mem_filter.mp h).1
  exact fun hc => (Text.of_mem_lines hk).1 ((Text.trim_isInfix k).subset hc)

/-- A kernel header without markers and banners declares what its visible lines declare. -/
theorem declared_visibleLines {t : Text}
    (h : ∀ l ∈ visibleLines t, ¬ banner <+: l ∧ l ≠ regionStart) :
    declared .blas (declarationLines .blas t) = declared .blas (visibleLines t) := by
  have hvisible : ∀ l ∈ (Text.lines t).map Text.trim, l ≠ [] → ¬ banner <+: l ∧ l ≠ regionStart :=
    fun l hl hne => h l (List.mem_filter.mpr ⟨hl, decide_eq_true hne⟩)
  have hunbounded : Unbounded .blas t := by
    intro _ l hl
    by_cases hnil : Text.trim l = []
    · rw [hnil]
      decide
    · obtain ⟨hbanner, hstart⟩ := hvisible _ (List.mem_map_of_mem hl) hnil
      refine ⟨hstart, fun hend => hbanner ?_⟩
      rw [hend]
      exact Text.startsWith_iff.mp (by decide)
  have hkeep : ∀ l ∈ (Text.lines t).map Text.trim, (!Text.startsWith l banner) = true := by
    intro l hl
    rw [Bool.not_eq_true', ← Bool.not_eq_true, Text.startsWith_iff]
    intro hbanner
    refine (hvisible l hl ?_).1 hbanner
    rintro rfl
    exact absurd hbanner (by decide)
  rw [declarationLines_blas hunbounded, List.filter_eq_self.mpr hkeep, ← declared_filter]
  rfl

end HeaderCards.Header
