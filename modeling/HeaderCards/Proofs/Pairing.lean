import HeaderCards.Pairing
import Mathlib.Data.List.Forall2

/-!
# Every argument has its own note

The note on an argument is the first one in card order under the most direct name that the
card knows. Two arguments are given the same note only when they are looked for under a
common name, so as long as no argument is named like another one behind a letter of the
function name, every note is given to one argument at most.
-/

namespace HeaderCards

namespace Description

variable {d : Description} {name other : Text} {k : Nat}

/-- No note is on the name, whatever the case of its letters. -/
def SilentOn (d : Description) (name : Text) : Prop :=
  ∀ n ∈ d.notes, Text.foldCase n.name ≠ Text.foldCase name

/-- The note at the place is on the name, and none in front of it is. -/
structure FirstOn (d : Description) (name : Text) (k : Nat) : Prop where
  found : ∃ n ∈ d.notes[k]?, Text.foldCase n.name = Text.foldCase name
  first : ∀ j < k, ∀ n ∈ d.notes[j]?, Text.foldCase n.name ≠ Text.foldCase name

/-- A name has no place when no note is on it. -/
theorem place?_eq_none_iff : d.place? name = none ↔ d.SilentOn name := by
  rw [place?, List.findIdx?_eq_none_iff]
  refine forall₂_congr fun n _ => ?_
  rw [← Bool.not_eq_true, Text.sameLetters_iff]

/-- The place of a name is that of the first note on it. -/
theorem place?_eq_some_iff : d.place? name = some k ↔ d.FirstOn name k := by
  rw [place?, List.findIdx?_eq_some_iff_getElem]
  constructor
  · rintro ⟨hk, hfound, hfirst⟩
    refine ⟨⟨d.notes[k], List.getElem?_eq_getElem hk, Text.sameLetters_iff.mp hfound⟩, ?_⟩
    intro j hj n hn
    obtain ⟨hlt, rfl⟩ := List.getElem?_eq_some_iff.mp hn
    rw [Ne, ← Text.sameLetters_iff]
    exact hfirst j hj
  · rintro ⟨⟨n, hn, hfound⟩, hfirst⟩
    obtain ⟨hk, rfl⟩ := List.getElem?_eq_some_iff.mp hn
    refine ⟨hk, Text.sameLetters_iff.mpr hfound, fun j hj => ?_⟩
    rw [Text.sameLetters_iff]
    exact hfirst j hj _ (List.getElem?_eq_getElem _)

/-- Names whose first note is the same are the same name. -/
theorem FirstOn.foldCase_eq (h : d.FirstOn name k) (h' : d.FirstOn other k) :
    Text.foldCase name = Text.foldCase other := by
  obtain ⟨n, hn, hname⟩ := h.found
  obtain ⟨n', hn', hother⟩ := h'.found
  have he : n = n' := Option.some.inj (hn.symm.trans hn')
  rw [← hname, ← hother, he]

/-- Of several names the first one that is known has the note at its place. -/
theorem findSome?_note? (d : Description) (names : List Text) :
    names.findSome? d.note? = (names.findSome? d.place?).bind (d.notes[·]?) := by
  induction names with
  | nil => rfl
  | cons name names ih =>
    rw [List.findSome?_cons, List.findSome?_cons, note?_eq, ih]
    cases hplace : d.place? name with
    | none => rfl
    | some k =>
      obtain ⟨n, hn, -⟩ := (place?_eq_some_iff.mp hplace).found
      rw [Option.bind_some, Option.mem_def.mp hn]

/-- Of several names the first one is looked for first. -/
theorem findSome?_place?_cons (d : Description) (name : Text) (names : List Text) :
    (name :: names).findSome? d.place? = (d.place? name).or (names.findSome? d.place?) := by
  rw [List.findSome?_cons]
  cases d.place? name <;> rfl

end Description

namespace Family

variable {f : Family} {function a b x y : Text} {d : Description} {k : Nat}

/-- The rules by which an argument is given a place in the card, each of them only where the
rules in front of it find none. -/
inductive Places (function : Text) (d : Description) (argument : Text) : Family → Nat → Prop
  /-- The first note on the argument itself. -/
  | own {f : Family} {k : Nat} (h : d.FirstOn argument k) : Places function d argument f k
  /-- The first note on the argument behind the letter at the nearer place. -/
  | near {c : Char} {k : Nat} (hown : d.SilentOn argument) (hc : function[6]? = some c)
      (h : d.FirstOn (c :: argument) k) : Places function d argument .blas k
  /-- The first note on the argument behind the letter one place further on. -/
  | far {c : Char} {k : Nat} (hown : d.SilentOn argument)
      (hnear : ∀ e ∈ function[6]?, d.SilentOn (e :: argument)) (hc : function[7]? = some c)
      (h : d.FirstOn (c :: argument) k) : Places function d argument .blas k

/-- Solvers have the rule for the own name only. -/
theorem placeFor?_lapack (function : Text) (d : Description) (argument : Text) :
    lapack.placeFor? function d argument = d.place? argument := by
  rw [placeFor?, cardNames, letterPlaces, List.filterMap_nil, Description.findSome?_place?_cons,
    List.findSome?_nil, Option.or_none]

/-- Kernels have three rules, one after the other. -/
theorem placeFor?_blas (function : Text) (d : Description) (argument : Text) :
    blas.placeFor? function d argument =
      (d.place? argument).or ((function[6]?.bind fun c => d.place? (c :: argument)).or
        (function[7]?.bind fun c => d.place? (c :: argument))) := by
  rw [placeFor?, cardNames, letterPlaces, Description.findSome?_place?_cons]
  simp only [List.filterMap_cons, List.filterMap_nil]
  cases function[6]? <;> cases function[7]? <;> simp [Description.findSome?_place?_cons]

/-- An argument has the place that the rules give it. -/
theorem placeFor?_eq_some_iff :
    f.placeFor? function d a = some k ↔ f.Places function d a k := by
  cases f with
  | lapack =>
    rw [placeFor?_lapack, Description.place?_eq_some_iff]
    constructor
    · exact .own
    · intro h
      cases h with
      | own h => exact h
  | blas =>
    simp only [placeFor?_blas, Option.or_eq_some_iff, Option.bind_eq_some_iff,
      Option.bind_eq_none_iff, Description.place?_eq_some_iff, Description.place?_eq_none_iff]
    constructor
    · rintro (h | ⟨hown, ⟨c, hc, h⟩ | ⟨hnear, c, hc, h⟩⟩)
      · exact .own h
      · exact .near hown hc h
      · exact .far hown hnear hc h
    · intro h
      cases h with
      | own h => exact Or.inl h
      | near hown hc h => exact Or.inr ⟨hown, Or.inl ⟨_, hc, h⟩⟩
      | far hown hnear hc h => exact Or.inr ⟨hown, Or.inr ⟨hnear, _, hc, h⟩⟩

/-- An argument is looked for under its own name, and behind the letters of the family. -/
theorem mem_cardNames : x ∈ f.cardNames function a ↔
    x = a ∨ ∃ i ∈ f.letterPlaces, ∃ c ∈ function[i]?, c :: a = x := by
  simp only [cardNames, List.mem_cons, List.mem_filterMap, Option.map_eq_some_iff,
    Option.mem_def]

/-- The place of an argument is that of a name under which it is looked for. -/
theorem exists_of_placeFor?_eq_some (h : f.placeFor? function d a = some k) :
    ∃ x ∈ f.cardNames function a, d.FirstOn x k := by
  obtain ⟨x, hx, hplace⟩ := List.exists_of_findSome?_eq_some h
  exact ⟨x, hx, Description.place?_eq_some_iff.mp hplace⟩

/-- The argument is not named like the other one behind a letter of the family. -/
def Unlettered (f : Family) (function a b : Text) : Prop :=
  ∀ i ∈ f.letterPlaces, ∀ c ∈ function[i]?, Text.foldCase a ≠ Text.foldCase (c :: b)

-- The test looks at the letters in the function name, and not at all characters.
instance (f : Family) (function a b : Text) : Decidable (f.Unlettered function a b) :=
  @List.decidableBAll _ _ (fun i => Option.decidableForallMem function[i]?) f.letterPlaces

/-- Arguments with different names have no common name, unless a letter makes one of them
the other. -/
theorem foldCase_ne_of_mem_cardNames (hab : Text.foldCase a ≠ Text.foldCase b)
    (ha : f.Unlettered function a b) (hb : f.Unlettered function b a)
    (hx : x ∈ f.cardNames function a) (hy : y ∈ f.cardNames function b) :
    Text.foldCase x ≠ Text.foldCase y := by
  obtain rfl | ⟨i, hi, c, hc, rfl⟩ := mem_cardNames.mp hx
  · obtain rfl | ⟨j, hj, e, he, rfl⟩ := mem_cardNames.mp hy
    · exact hab
    · exact ha j hj e he
  · obtain rfl | ⟨j, hj, e, he, rfl⟩ := mem_cardNames.mp hy
    · exact (hb i hi c hc).symm
    · intro h
      exact hab (List.cons.inj h).2

end Family

namespace Prototype

variable {p : Prototype} {f : Family}

/-- Both arguments are given the note at one and the same place. -/
def SharesPlace (p : Prototype) (f : Family) (d : Description) (a b : Argument) : Prop :=
  ∃ k, f.placeFor? p.name d a.name = some k ∧ f.placeFor? p.name d b.name = some k

/-- Every argument is paired with the note at its place. -/
theorem pair_eq (p : Prototype) (f : Family) (d : Description) :
    p.pair f d = p.arguments.map fun a =>
      ⟨a, (f.placeFor? p.name d a.name).bind (d.notes[·]?)⟩ := by
  simp only [pair, Family.noteFor?, Family.placeFor?, Description.findSome?_note?]

/-- Arguments with different names are given different notes when no letter of the function
name makes one of them another one. -/
theorem pairwise_not_sharesPlace (hnames : (p.arguments.map (Text.foldCase ·.name)).Nodup)
    (hletters : ∀ a ∈ p.arguments, ∀ b ∈ p.arguments, a ≠ b →
      f.Unlettered p.name a.name b.name) (d : Description) :
    p.arguments.Pairwise (¬ p.SharesPlace f d · ·) := by
  refine List.Pairwise.imp_of_mem ?_ (List.pairwise_map.mp hnames)
  rintro a b ha hb hab ⟨k, hka, hkb⟩
  have hne : a ≠ b := fun he => hab (he ▸ rfl)
  obtain ⟨x, hx, hfirstx⟩ := Family.exists_of_placeFor?_eq_some hka
  obtain ⟨y, hy, hfirsty⟩ := Family.exists_of_placeFor?_eq_some hkb
  exact Family.foldCase_ne_of_mem_cardNames hab (hletters a ha b hb hne)
    (hletters b hb a ha hne.symm) hx hy (hfirstx.foldCase_eq hfirsty)

/-- Pairing gives one element for each argument, in order, with the note at the place of the
argument. The place is that of the first note under the first rule that finds one. Solvers
whose arguments have different names never share a place, and neither do kernels unless
an argument is named like another one behind one of the two letters. -/
theorem pair_of_distinct (p : Prototype) (d : Description) :
    (∀ f : Family, List.Forall₂ (fun a q => q.argument = a ∧
        q.note? = (f.placeFor? p.name d a.name).bind (d.notes[·]?)) p.arguments (p.pair f d)) ∧
    (∀ (f : Family) (argument : Text) (k : Nat),
      f.placeFor? p.name d argument = some k ↔ f.Places p.name d argument k) ∧
    ((p.arguments.map (Text.foldCase ·.name)).Nodup →
      p.arguments.Pairwise (¬ p.SharesPlace .lapack d · ·)) ∧
    ((p.arguments.map (Text.foldCase ·.name)).Nodup →
      (∀ a ∈ p.arguments, ∀ b ∈ p.arguments, a ≠ b → ∀ i ∈ [6, 7], ∀ c ∈ p.name[i]?,
        Text.foldCase a.name ≠ Text.foldCase (c :: b.name)) →
      p.arguments.Pairwise (¬ p.SharesPlace .blas d · ·)) := by
  refine ⟨fun f => ?_, fun f argument k => Family.placeFor?_eq_some_iff, fun hnames => ?_,
    fun hnames hletters =>
      pairwise_not_sharesPlace (f := .blas) hnames hletters d⟩
  · rw [pair_eq, List.forall₂_map_right_iff]
    exact List.forall₂_same.mpr fun a _ => ⟨rfl, rfl⟩
  · apply pairwise_not_sharesPlace hnames
    intro a _ b _ _ i hi
    exact absurd hi List.not_mem_nil

/-- A kernel whose name has the letter of its data type at the further place. -/
def searchKernel : Prototype :=
  ⟨"cblas_idamax", "CBLAS_INDEX", [⟨"int", "n"⟩, ⟨"double*", "x"⟩, ⟨"int", "incx"⟩]⟩

/-- The card of the kernel, with the letter in front of the vector's name. -/
def searchCard : Description :=
  { notes := [⟨"N", .input, []⟩, ⟨"DX", .input, []⟩, ⟨"INCX", .input, []⟩] }

/-- The arguments of the kernel share no place, and its vector has the place of the name
with the letter. -/
theorem pair_of_searchKernel :
    searchKernel.arguments.Pairwise (¬ searchKernel.SharesPlace .blas searchCard · ·) ∧
      searchKernel.arguments.Pairwise (¬ searchKernel.SharesPlace .lapack searchCard · ·) ∧
      Family.blas.Places "cblas_idamax" searchCard "x" 1 := by
  have hnames : (searchKernel.arguments.map (Text.foldCase ·.name)).Nodup := by decide +kernel
  have hletters : ∀ a ∈ searchKernel.arguments, ∀ b ∈ searchKernel.arguments, a ≠ b →
      Family.blas.Unlettered searchKernel.name a.name b.name := by decide +kernel
  obtain ⟨-, hplaces, hsolver, hkernel⟩ := pair_of_distinct searchKernel searchCard
  exact ⟨hkernel hnames hletters, hsolver hnames, (hplaces .blas "x" 1).mp (by decide +kernel)⟩

end Prototype

end HeaderCards
