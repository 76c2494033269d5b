import Mathlib.Data.List.Forall2

/-!
# Outcomes of reading

Every reader of the library gives a value or the reason why there is none. Readers are
chained, run over lists and folded over lines; these are the laws of doing so. A chain
succeeds when all of it does, and a list of readings fails with the first failure in it. When
none fails, the values stand side by side with what they were read from.
-/

namespace HeaderCards

variable {ε α β γ σ : Type}

/-! ## Lists side by side -/

section SideBySide

variable {R : α → β → Prop} {as : List α} {bs : List β}

/-- Every element of the first of two lists stands beside one of the second. -/
theorem exists_right_of_forall₂ {a : α} (h : List.Forall₂ R as bs) (ha : a ∈ as) :
    ∃ b ∈ bs, R a b := by
  induction h with
  | nil => contradiction
  | cons hab _ ih =>
    rcases List.mem_cons.mp ha with rfl | ha
    · exact ⟨_, List.mem_cons_self .., hab⟩
    · obtain ⟨b, hb, hR⟩ := ih ha
      exact ⟨b, List.mem_cons_of_mem _ hb, hR⟩

/-- Every element of the second of two lists stands beside one of the first. -/
theorem exists_left_of_forall₂ {b : β} (h : List.Forall₂ R as bs) (hb : b ∈ bs) :
    ∃ a ∈ as, R a b := by
  have hflip : List.Forall₂ (flip R) bs as := List.Forall₂.flip h
  exact exists_right_of_forall₂ hflip hb

/-- Lists whose elements are mapped to the same, side by side, are mapped to the same. -/
theorem map_eq_map_of_forall₂ {f : α → γ} {g : β → γ}
    (h : List.Forall₂ (fun a b => g b = f a) as bs) : bs.map g = as.map f := by
  rw [← List.forall₂_eq_eq_eq, List.forall₂_map_left_iff, List.forall₂_map_right_iff]
  exact h.flip

end SideBySide

/-! ## Chains -/

@[simp] theorem ok_bind (a : α) (f : α → Except ε β) : (Except.ok a >>= f) = f a := rfl

@[simp] theorem error_bind (e : ε) (f : α → Except ε β) : (Except.error e >>= f) = .error e := rfl

@[simp] theorem map_ok (f : α → β) (a : α) : (Except.ok a : Except ε α).map f = .ok (f a) := rfl

@[simp] theorem map_error (f : α → β) (e : ε) : (Except.error e).map f = .error e := rfl

/-- A chain succeeds when both of its parts do. -/
theorem bind_eq_ok_iff {x : Except ε α} {f : α → Except ε β} {b : β} :
    x >>= f = .ok b ↔ ∃ a, x = .ok a ∧ f a = .ok b := by
  cases x <;> simp

/-- A chain fails when its first part does, or its second part behind a success. -/
theorem bind_eq_error_iff {x : Except ε α} {f : α → Except ε β} {e : ε} :
    x >>= f = .error e ↔ x = .error e ∨ ∃ a, x = .ok a ∧ f a = .error e := by
  cases x <;> simp

/-- A mapped reading fails when the reading does. -/
theorem map_eq_error_iff {x : Except ε α} {f : α → β} {e : ε} :
    x.map f = .error e ↔ x = .error e := by
  cases x <;> simp

/-- A mapped reading succeeds when the reading does. -/
theorem map_eq_ok_iff {x : Except ε α} {f : α → β} {b : β} :
    x.map f = .ok b ↔ ∃ a, x = .ok a ∧ f a = b := by
  cases x <;> simp

/-- Mapping is a chain whose second part cannot fail. -/
theorem map_eq_bind (x : Except ε α) (f : α → β) : x.map f = x >>= fun a => .ok (f a) := by
  cases x <;> rfl

/-! ## Renamed failures -/

@[simp] theorem mapError_ok {ε' : Type} (g : ε → ε') (a : α) :
    (Except.ok a : Except ε α).mapError g = .ok a := rfl

@[simp] theorem mapError_error {ε' : Type} (g : ε → ε') (e : ε) :
    (Except.error e : Except ε α).mapError g = .error (g e) := rfl

/-- A renamed reading succeeds when the reading does. -/
theorem mapError_eq_ok_iff {ε' : Type} {g : ε → ε'} {x : Except ε α} {a : α} :
    x.mapError g = .ok a ↔ x = .ok a := by
  cases x <;> simp

/-- A renamed reading fails when the reading does. -/
theorem mapError_eq_error_iff {ε' : Type} {g : ε → ε'} {x : Except ε α} {e : ε'} :
    x.mapError g = .error e ↔ ∃ cause, x = .error cause ∧ g cause = e := by
  cases x <;> simp

/-- A chain fails under new names when its parts do. -/
theorem mapError_bind {ε' : Type} (g : ε → ε') (x : Except ε α) (f : α → Except ε β) :
    (x >>= f).mapError g = x.mapError g >>= fun a => (f a).mapError g := by
  cases x <;> rfl

/-- A fold fails under new names when its steps do. -/
theorem foldlM_mapError {ε' : Type} (g : ε → ε') (f : σ → α → Except ε σ) (s : σ) (as : List α) :
    as.foldlM (fun s a => (f s a).mapError g) s = (as.foldlM f s).mapError g := by
  induction as generalizing s with
  | nil => rfl
  | cons a as ih => simp only [List.foldlM_cons, mapError_bind, ih]

/-! ## Readings side by side -/

section Alike

variable {δ τ : Type} {R : α → β → Prop}

/-- Two readings fail for the same reason, or they succeed with values in relation. -/
inductive Alike (R : α → β → Prop) : Except ε α → Except ε β → Prop
  | error (e : ε) : Alike R (.error e) (.error e)
  | ok {a : α} {b : β} : R a b → Alike R (.ok a) (.ok b)

namespace Alike

/-- What succeeds is alike only to what succeeds. -/
theorem exists_of_ok {a : α} {y : Except ε β} (h : Alike R (.ok a) y) : ∃ b, y = .ok b ∧ R a b := by
  cases h with
  | ok hab => exact ⟨_, rfl, hab⟩

/-- Readings that succeed with equal values are equal. -/
theorem eq {x y : Except ε α} (h : Alike Eq x y) : x = y := by
  cases h with
  | error e => rfl
  | ok hab => exact congrArg Except.ok hab

/-- Chains are alike when their parts are. -/
theorem bind {S : γ → δ → Prop} {x : Except ε α} {y : Except ε β} {f : α → Except ε γ}
    {g : β → Except ε δ} (h : Alike R x y) (hfg : ∀ a b, R a b → Alike S (f a) (g b)) :
    Alike S (x >>= f) (y >>= g) := by
  cases h with
  | error e => exact .error e
  | ok hab => exact hfg _ _ hab

/-- Folds are alike when their steps are. -/
theorem foldlM {S : σ → τ → Prop} {f : σ → α → Except ε σ} {g : τ → α → Except ε τ}
    (h : ∀ s t a, S s t → Alike S (f s a) (g t a)) {s : σ} {t : τ} (hst : S s t) (as : List α) :
    Alike S (as.foldlM f s) (as.foldlM g t) := by
  induction as generalizing s t with
  | nil => exact .ok hst
  | cons a as ih =>
    rw [List.foldlM_cons, List.foldlM_cons]
    exact (h s t a hst).bind fun _ _ h' => ih h'

end Alike

end Alike

/-! ## Lists -/

/-- A list of readings succeeds when each of them does. -/
theorem mapM_eq_ok_iff {f : α → Except ε β} {as : List α} {bs : List β} :
    as.mapM f = .ok bs ↔ as.map f = bs.map .ok := by
  induction as generalizing bs with
  | nil => cases bs <;> simp [pure, Except.pure]
  | cons a as ih =>
    rw [List.mapM_cons, bind_eq_ok_iff, List.map_cons]
    constructor
    · rintro ⟨b, hb, h⟩
      obtain ⟨cs, hcs, he⟩ := bind_eq_ok_iff.mp h
      cases he
      simp [hb, ih.mp hcs]
    · intro h
      cases bs with
      | nil => simp at h
      | cons b bs =>
        simp only [List.map_cons, List.cons.injEq] at h
        exact ⟨b, h.1, bind_eq_ok_iff.mpr ⟨bs, ih.mpr h.2, rfl⟩⟩

/-- A list of readings succeeds when its values stand against what they are read from. -/
theorem mapM_eq_ok_iff_forall₂ {f : α → Except ε β} {as : List α} {bs : List β} :
    as.mapM f = .ok bs ↔ List.Forall₂ (fun a b => f a = .ok b) as bs := by
  rw [mapM_eq_ok_iff, ← List.forall₂_eq_eq_eq, List.forall₂_map_left_iff,
    List.forall₂_map_right_iff]

/-- The values of a list of readings stand against what they were read from. -/
theorem forall₂_of_mapM {f : α → Except ε β} {as : List α} {bs : List β}
    (h : as.mapM f = .ok bs) : List.Forall₂ (fun a b => f a = .ok b) as bs :=
  mapM_eq_ok_iff_forall₂.mp h

/-- Every value of a list of readings was read. -/
theorem exists_of_mem_mapM {f : α → Except ε β} {as : List α} {bs : List β}
    (h : as.mapM f = .ok bs) {b : β} (hb : b ∈ bs) : ∃ a ∈ as, f a = .ok b :=
  exists_left_of_forall₂ (R := fun a b => f a = .ok b) (forall₂_of_mapM h) hb

/-- What every value of a list of readings is mapped to is read at once. -/
theorem map_mapM (g : β → γ) (f : α → Except ε β) (as : List α) :
    (as.mapM f).map (List.map g) = as.mapM fun a => (f a).map g := by
  induction as with
  | nil => rfl
  | cons a as ih =>
    rw [List.mapM_cons, List.mapM_cons, ← ih]
    cases f a with
    | error e => rfl
    | ok b => cases as.mapM f <;> rfl

/-- A list of readings is kept when every value tells what it was read from. -/
theorem map_eq_of_mapM {f : α → Except ε β} {g : β → α} (hg : ∀ a b, f a = .ok b → g b = a)
    {as : List α} {bs : List β} (h : as.mapM f = .ok bs) : bs.map g = as := by
  rw [map_eq_map_of_forall₂ ((forall₂_of_mapM h).imp hg), List.map_id']

/-- The first failure of a list of readings is the failure of the whole. -/
theorem mapM_eq_error {f : α → Except ε β} {before after : List α} {a : α} {e : ε}
    (hbefore : ∀ c ∈ before, ∃ b, f c = .ok b) (ha : f a = .error e) :
    (before ++ a :: after).mapM f = .error e := by
  induction before with
  | nil => simp [ha]
  | cons c before ih =>
    obtain ⟨b, hb⟩ := hbefore c (List.mem_cons_self ..)
    rw [List.cons_append, List.mapM_cons, hb, ok_bind,
      ih fun d hd => hbefore d (List.mem_cons_of_mem _ hd), error_bind]

/-- A list of readings fails with its first failure, in front of which all readings succeed. -/
theorem exists_of_mapM_eq_error {f : α → Except ε β} {as : List α} {e : ε}
    (h : as.mapM f = .error e) : ∃ before a after, as = before ++ a :: after ∧
      (∀ c ∈ before, ∃ b, f c = .ok b) ∧ f a = .error e := by
  induction as with
  | nil => contradiction
  | cons a as ih =>
    rw [List.mapM_cons] at h
    cases ha : f a with
    | error e' =>
      rw [ha, error_bind] at h
      cases h
      exact ⟨[], a, as, rfl, by simp, ha⟩
    | ok b =>
      rw [ha, ok_bind] at h
      cases hrest : as.mapM f with
      | ok bs =>
        rw [hrest] at h
        contradiction
      | error e' =>
        rw [hrest, error_bind] at h
        cases h
        obtain ⟨before, c, after, rfl, hbefore, hc⟩ := ih hrest
        exact ⟨a :: before, c, after, rfl, List.forall_mem_cons.mpr ⟨⟨b, ha⟩, hbefore⟩, hc⟩

/-- A list of readings fails exactly with its first failure. -/
theorem mapM_eq_error_iff {f : α → Except ε β} {as : List α} {e : ε} :
    as.mapM f = .error e ↔ ∃ before a after, as = before ++ a :: after ∧
      (∀ c ∈ before, ∃ b, f c = .ok b) ∧ f a = .error e := by
  constructor
  · exact exists_of_mapM_eq_error
  · rintro ⟨before, a, after, rfl, hbefore, ha⟩
    exact mapM_eq_error hbefore ha

/-- A list of readings has values when each of them has one. -/
theorem exists_mapM_iff {f : α → Except ε β} {as : List α} :
    (∃ bs, as.mapM f = .ok bs) ↔ ∀ a ∈ as, ∃ b, f a = .ok b := by
  constructor
  · rintro ⟨bs, h⟩ a ha
    have hmem : f a ∈ bs.map .ok := mapM_eq_ok_iff.mp h ▸ List.mem_map_of_mem ha
    obtain ⟨b, -, hb⟩ := List.mem_map.mp hmem
    exact ⟨b, hb.symm⟩
  · intro h
    cases hbs : as.mapM f with
    | ok bs => exact ⟨bs, rfl⟩
    | error e =>
      obtain ⟨before, a, after, rfl, -, ha⟩ := exists_of_mapM_eq_error hbs
      obtain ⟨b, hb⟩ := h a (List.mem_append_right before (List.mem_cons_self ..))
      rw [ha] at hb
      contradiction

/-! ## Folds -/

/-- A state that no element changes is kept to the end. -/
theorem foldlM_of_fixed {f : σ → α → Except ε σ} {s : σ} {as : List α}
    (h : ∀ a ∈ as, f s a = .ok s) : as.foldlM f s = .ok s := by
  induction as with
  | nil => rfl
  | cons a as ih =>
    rw [List.foldlM_cons, h a (List.mem_cons_self ..), ok_bind,
      ih fun b hb => h b (List.mem_cons_of_mem _ hb)]

end HeaderCards
