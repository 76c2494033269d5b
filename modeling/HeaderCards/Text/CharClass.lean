/-!
# Character classes

A class of characters is a list of closed ranges of code points. Two classes whose ranges
keep apart share no character, which reduces disjointness of classes to comparing bounds.
-/

namespace HeaderCards

/-- A class holds the characters whose code point lies in one of its closed ranges. -/
abbrev CharClass := List (Nat × Nat)

namespace CharClass

/-- The class holds `c`. -/
def has (k : CharClass) (c : Char) : Bool :=
  k.any fun r => r.1 ≤ c.toNat && c.toNat ≤ r.2

theorem has_iff {k : CharClass} {c : Char} :
    k.has c = true ↔ ∃ r ∈ k, r.1 ≤ c.toNat ∧ c.toNat ≤ r.2 := by
  simp [has]

/-- Every range of one class lies wholly beside every range of the other. -/
def apart (k l : CharClass) : Bool :=
  k.all fun r => l.all fun s => r.2 < s.1 || s.2 < r.1

/-- Classes that keep apart share no character. -/
theorem not_has_of_apart {k l : CharClass} (h : k.apart l = true) {c : Char}
    (hk : k.has c = true) : l.has c = false := by
  obtain ⟨r, hr, hlo, hhi⟩ := has_iff.mp hk
  rw [← Bool.not_eq_true, has_iff]
  rintro ⟨s, hs, hslo, hshi⟩
  have := List.all_eq_true.mp (List.all_eq_true.mp h r hr) s hs
  simp only [Bool.or_eq_true, decide_eq_true_eq] at this
  omega

end CharClass

end HeaderCards
