import HeaderCards.Prototype
import Std.Data.TreeSet

/-!
# Prototypes with distinct names

Of the prototypes that share a name the first is kept. The names met so far are held in a
search tree; the equation for a list with a first element says what that amounts to: the
first prototype stays, and all others of its name go.
-/

namespace HeaderCards.Prototype

/-- The names that are taken. -/
abbrev Names := Std.TreeSet Text

/-- The first prototype of every name that is not taken. -/
def distinctAfter (taken : Names) : List Prototype → List Prototype
  | [] => []
  | p :: ps =>
    if taken.contains p.name then distinctAfter taken ps
    else p :: distinctAfter (taken.insert p.name) ps

/-- The first prototype of every name, in order. -/
def distinct (ps : List Prototype) : List Prototype := distinctAfter ∅ ps

/-- Only which names are taken counts. -/
theorem distinctAfter_congr {a b : Names} (h : ∀ n, a.contains n = b.contains n)
    (ps : List Prototype) : distinctAfter a ps = distinctAfter b ps := by
  induction ps generalizing a b with
  | nil => rfl
  | cons p ps ih =>
    have hi : ∀ n, (a.insert p.name).contains n = (b.insert p.name).contains n := by
      simp [h]
    simp only [distinctAfter, h p.name, ih h, ih hi]

/-- Taking one more name leaves out the prototype of that name. -/
theorem distinctAfter_insert (taken : Names) (name : Text) (ps : List Prototype) :
    distinctAfter (taken.insert name) ps =
      (distinctAfter taken ps).filter (·.name ≠ name) := by
  induction ps generalizing taken with
  | nil => rfl
  | cons p ps ih =>
    have hswap : ∀ n, ((taken.insert name).insert p.name).contains n =
        ((taken.insert p.name).insert name).contains n := by
      intro n
      rw [Std.TreeSet.contains_insert, Std.TreeSet.contains_insert,
        Std.TreeSet.contains_insert, Std.TreeSet.contains_insert, Bool.or_left_comm]
    cases ht : taken.contains p.name
    · by_cases hn : p.name = name
      · subst hn
        simp [distinctAfter, ht, ih]
      · simp [distinctAfter, ht, hn, Ne.symm hn, distinctAfter_congr hswap, ih]
    · simp [distinctAfter, ht, ih]

@[simp] theorem distinct_nil : distinct [] = [] := rfl

/-- The first prototype is kept, and no other of its name. -/
@[simp] theorem distinct_cons (p : Prototype) (ps : List Prototype) :
    distinct (p :: ps) = p :: (distinct ps).filter (·.name ≠ p.name) := by
  have h : (∅ : Names).contains p.name = false := by simp
  simp [distinct, distinctAfter, h, distinctAfter_insert]

end HeaderCards.Prototype
