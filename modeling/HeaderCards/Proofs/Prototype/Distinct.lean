import HeaderCards.Prototype.Distinct

/-!
# The first prototype of every name

What is kept of a list of prototypes is the list without the later ones of every name. So it
is a selection from the list in the same order, its names are pairwise different, and under
every name it has the prototype that the whole list has first.
-/

namespace HeaderCards.Prototype

/-- Leaving out a name before or after the selection is the same. -/
theorem distinct_filter (n : Text) (ps : List Prototype) :
    distinct (ps.filter (·.name ≠ n)) = (distinct ps).filter (·.name ≠ n) := by
  induction ps with
  | nil => rfl
  | cons p ps ih =>
    rw [distinct_cons]
    by_cases hn : p.name = n
    · rw [List.filter_cons_of_neg (by simpa using hn), List.filter_cons_of_neg (by simpa using hn),
        ih, hn, List.filter_filter]
      simp
    · rw [List.filter_cons_of_pos (by simpa using hn), List.filter_cons_of_pos (by simpa using hn),
        distinct_cons, ih, List.filter_filter, List.filter_filter]
      simp only [Bool.and_comm]

/-- The later prototypes of every name are erased. -/
theorem distinct_eq_eraseDupsBy (ps : List Prototype) :
    distinct ps = ps.eraseDupsBy (·.name == ·.name) := by
  generalize hlength : ps.length = k
  induction k using Nat.strongRecOn generalizing ps with
  | ind k ih =>
    cases ps with
    | nil => rfl
    | cons p ps =>
      have hfilter : ps.filter (·.name ≠ p.name) = ps.filter fun q => (q.name == p.name) = false :=
        List.filter_congr fun q _ => by simp
      have hshort : (ps.filter (·.name ≠ p.name)).length < k := by
        have hle := List.length_filter_le (·.name ≠ p.name) ps
        rw [List.length_cons] at hlength
        omega
      rw [distinct_cons, ← distinct_filter, ih _ hshort _ rfl, List.eraseDupsBy_cons, hfilter]

/-- The prototypes kept stand in their old order. -/
theorem distinct_sublist (ps : List Prototype) : (distinct ps).Sublist ps := by
  induction ps with
  | nil => simp
  | cons p ps ih =>
    rw [distinct_cons]
    exact (List.filter_sublist.trans ih).cons_cons p

/-- No two of the prototypes kept share their name. -/
theorem nodup_names_distinct (ps : List Prototype) : ((distinct ps).map (·.name)).Nodup := by
  induction ps with
  | nil => simp
  | cons p ps ih =>
    rw [distinct_cons, List.map_cons, List.nodup_cons]
    refine ⟨?_, (List.filter_sublist.map _).nodup ih⟩
    intro hmem
    obtain ⟨q, hq, hname⟩ := List.mem_map.mp hmem
    simp [hname] at hq

/-- Under every name the first prototype of the whole list is kept. -/
theorem find?_distinct (n : Text) (ps : List Prototype) :
    (distinct ps).find? (·.name = n) = ps.find? (·.name = n) := by
  induction ps with
  | nil => rfl
  | cons p ps ih =>
    rw [distinct_cons]
    by_cases hn : p.name = n
    · simp [hn]
    · rw [List.find?_cons_of_neg (by simpa using hn), List.find?_cons_of_neg (by simpa using hn),
        ← ih, List.find?_filter]
      congr 1
      funext q
      have hq : q.name = n → q.name ≠ p.name := by
        rintro rfl
        exact Ne.symm hn
      simpa using hq

/-- A prototype in the list has its name among those kept. -/
theorem mem_names_distinct {p : Prototype} {ps : List Prototype} (h : p ∈ ps) :
    p.name ∈ (distinct ps).map (·.name) := by
  have hfind : ((distinct ps).find? (·.name = p.name)).isSome := by
    rw [find?_distinct, List.find?_isSome]
    exact ⟨p, h, by simp⟩
  obtain ⟨q, hq, hname⟩ := List.find?_isSome.mp hfind
  exact List.mem_map.mpr ⟨q, hq, by simpa using hname⟩

/-- The names of the prototypes kept are those of the whole list. -/
theorem mem_names_distinct_iff {n : Text} {ps : List Prototype} :
    n ∈ (distinct ps).map (·.name) ↔ n ∈ ps.map (·.name) := by
  constructor
  · exact fun h => ((distinct_sublist ps).map _).subset h
  · intro h
    obtain ⟨p, hp, rfl⟩ := List.mem_map.mp h
    exact mem_names_distinct hp

/-- Of the prototypes behind others those are kept whose name is new. -/
theorem distinct_append (ps qs : List Prototype) :
    distinct (ps ++ qs) =
      distinct ps ++ (distinct qs).filter (·.name ∉ (distinct ps).map (·.name)) := by
  simp only [mem_names_distinct_iff]
  induction ps with
  | nil => exact (List.filter_eq_self.mpr (by simp)).symm
  | cons p ps ih =>
    rw [List.cons_append, distinct_cons, distinct_cons, ih, List.filter_append, List.cons_append,
      List.filter_filter]
    congr 2
    refine List.filter_congr fun q _ => ?_
    simp [not_or]

/-- A prototype in the list is kept unless one of its name stands in front of it; then the
first such is kept. -/
theorem mem_distinct_append_cons (ps : List Prototype) (p : Prototype) (qs : List Prototype) :
    p ∈ distinct (ps ++ p :: qs) ∨
      ∃ q ∈ ps, q ∈ distinct (ps ++ p :: qs) ∧ q.name = p.name := by
  have hfind := find?_distinct p.name (ps ++ p :: qs)
  rw [List.find?_append, List.find?_cons_of_pos (by simp)] at hfind
  cases hfront : ps.find? (·.name = p.name) with
  | none =>
    rw [hfront, Option.none_or] at hfind
    exact .inl (List.mem_of_find?_eq_some hfind)
  | some q =>
    rw [hfront, Option.some_or] at hfind
    exact .inr ⟨q, List.mem_of_find?_eq_some hfront, List.mem_of_find?_eq_some hfind,
      by simpa using List.find?_some hfront⟩

/-- Prototypes with different names are all kept. -/
theorem distinct_eq_self {ps : List Prototype} (h : (ps.map (·.name)).Nodup) :
    distinct ps = ps := by
  induction ps with
  | nil => rfl
  | cons p ps ih =>
    rw [List.map_cons, List.nodup_cons] at h
    rw [distinct_cons, ih h.2, List.filter_eq_self.mpr]
    intro q hq
    have hne : q.name ≠ p.name := fun he => h.1 (he ▸ List.mem_map_of_mem hq)
    simpa using hne

end HeaderCards.Prototype
