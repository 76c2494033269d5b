import HeaderCards.Text

/-!
# Replacing parts

Occurrences of a part are replaced from left to right, and an occurrence that overlaps a
replaced one is left alone. The three equations below determine the result: an occurrence
at the front is exchanged whole, any other character is kept, and the empty text has
nothing to replace.
-/

namespace HeaderCards.Text

/-- Replace `old` by `new`, after passing over `skipped` characters of an occurrence that
has been replaced already. -/
def replaceAfter (old new : Text) : Nat → Text → Text
  | _, [] => []
  | skipped + 1, _ :: cs => replaceAfter old new skipped cs
  | 0, c :: cs =>
    if startsWith (c :: cs) old then new ++ replaceAfter old new (old.length - 1) cs
    else c :: replaceAfter old new 0 cs

/-- The text with every occurrence of `old`, taken from the left, replaced by `new`. -/
def replace (old new t : Text) : Text := replaceAfter old new 0 t

@[simp] theorem replace_nil (old new : Text) : replace old new [] = [] := rfl

/-- Passing over characters drops them. -/
theorem replaceAfter_eq_drop (old new : Text) (skipped : Nat) (t : Text) :
    replaceAfter old new skipped t = replace old new (t.drop skipped) := by
  induction t generalizing skipped with
  | nil => cases skipped <;> simp [replaceAfter]
  | cons c cs ih =>
    cases skipped with
    | zero => rfl
    | succ n => simpa [replaceAfter] using ih n

/-- An occurrence at the front is exchanged whole. -/
theorem replace_append {old : Text} (h : old ≠ []) (new rest : Text) :
    replace old new (old ++ rest) = new ++ replace old new rest := by
  obtain ⟨c, cs, rfl⟩ := List.exists_cons_of_ne_nil h
  have hs : startsWith (c :: (cs ++ rest)) (c :: cs) = true := by simp
  simp [replace, replaceAfter, hs]
  simpa [replace] using replaceAfter_eq_drop (c :: cs) new cs.length (cs ++ rest)

/-- A character at which no occurrence begins is kept. -/
theorem replace_cons_of_not_startsWith {old : Text} {c : Char} {cs : Text} (new : Text)
    (h : startsWith (c :: cs) old = false) :
    replace old new (c :: cs) = c :: replace old new cs := by
  simp [replace, replaceAfter, h]

/-- A text without the part is kept. -/
theorem replace_of_not_infix {old t : Text} (new : Text) (h : ¬ old <:+: t) :
    replace old new t = t := by
  induction t with
  | nil => rfl
  | cons c cs ih =>
    have hs : startsWith (c :: cs) old = false := by
      rw [← Bool.not_eq_true, startsWith_iff]
      exact fun hp => h hp.isInfix
    have ht : ¬ old <:+: cs := fun hi => h (hi.trans (List.suffix_cons c cs).isInfix)
    rw [replace_cons_of_not_startsWith new hs, ih ht]

end HeaderCards.Text
