/-!
# Text

A text is the list of its characters, so that every recogniser in the library is a
recursion on a list and every count is a count of code points. Written text enters as a
string literal and leaves through `String.ofList` at the command line.

The search for a part, a start or an end of a text is characterised by the list relations
`<:+:`, `<+:` and `<:+`, and case is folded on the ASCII letters only.
-/

namespace HeaderCards

/-- A text is the list of its code points. -/
abbrev Text := List Char

namespace Text

/-- A literal stands for the list of its characters. -/
instance : Coe String Text := ⟨String.toList⟩

/-- Comparing characters decides whether two texts are equal. -/
instance : LawfulBEq Text := inferInstance

/-! ## Parts, starts and ends -/

/-- `part` stands somewhere in the text. -/
def includes (part : Text) : Text → Bool
  | [] => part.isEmpty
  | c :: cs => part.isPrefixOf (c :: cs) || includes part cs

/-- Finding a part is the infix relation. -/
theorem includes_iff {part t : Text} : includes part t = true ↔ part <:+: t := by
  induction t with
  | nil => simp [includes]
  | cons c cs ih => simp [includes, ih, List.infix_cons_iff]

/-- The text begins with `start`. -/
def startsWith (t start : Text) : Bool := start.isPrefixOf t

@[simp] theorem startsWith_iff {t start : Text} : startsWith t start = true ↔ start <+: t :=
  List.isPrefixOf_iff_prefix

/-- The text ends with `ending`. -/
def endsWith (t ending : Text) : Bool := ending.isSuffixOf t

@[simp] theorem endsWith_iff {t ending : Text} : endsWith t ending = true ↔ ending <:+ t :=
  List.isSuffixOf_iff_suffix

/-- The text after `start`, when the text begins with it. -/
def dropStart? (start t : Text) : Option Text :=
  if startsWith t start then some (t.drop start.length) else none

/-- Dropping a start splits the text behind it. -/
theorem dropStart?_eq_some_iff {start t rest : Text} :
    dropStart? start t = some rest ↔ t = start ++ rest := by
  unfold dropStart?
  split
  · next h =>
    obtain ⟨r, rfl⟩ := startsWith_iff.mp h
    simp
  · next h =>
    refine ⟨fun he => (by simp at he), fun he => absurd ?_ h⟩
    exact startsWith_iff.mpr ⟨rest, he.symm⟩

/-- The text before `ending`, when the text ends with it. -/
def dropEnd? (ending t : Text) : Option Text :=
  if endsWith t ending then some (t.take (t.length - ending.length)) else none

/-- Dropping an end splits the text in front of it. -/
theorem dropEnd?_eq_some_iff {ending t rest : Text} :
    dropEnd? ending t = some rest ↔ t = rest ++ ending := by
  unfold dropEnd?
  split
  · next h =>
    obtain ⟨r, rfl⟩ := endsWith_iff.mp h
    simp
  · next h =>
    refine ⟨fun he => (by simp at he), fun he => absurd ?_ h⟩
    exact endsWith_iff.mpr ⟨rest, he.symm⟩

/-- The text before the last `c`, when there is one. -/
def beforeLast? (c : Char) (t : Text) : Option Text :=
  match t.reverse.dropWhile (· ≠ c) with
  | [] => none
  | _ :: front => some front.reverse

/-! ## Letter case -/

/-- The text with its ASCII capitals made small; every other character is kept. -/
def foldCase (t : Text) : Text := t.map Char.toLower

@[simp] theorem length_foldCase (t : Text) : (foldCase t).length = t.length := by
  simp [foldCase]

/-- Two texts agree up to the case of ASCII letters. -/
def sameLetters : Text → Text → Bool
  | [], [] => true
  | a :: as, b :: bs => a.toLower == b.toLower && sameLetters as bs
  | _, _ => false

/-- Two texts agree when they are the same with all capitals made small. -/
theorem sameLetters_iff {a b : Text} : sameLetters a b = true ↔ foldCase a = foldCase b := by
  induction a generalizing b with
  | nil => cases b <;> simp [sameLetters, foldCase]
  | cons c cs ih =>
    cases b with
    | nil => simp [sameLetters, foldCase]
    | cons d ds => simpa [sameLetters, foldCase] using fun _ => ih

@[simp] theorem sameLetters_refl (a : Text) : sameLetters a a = true :=
  sameLetters_iff.mpr rfl

theorem sameLetters_comm (a b : Text) : sameLetters a b = sameLetters b a := by
  rw [Bool.eq_iff_iff, sameLetters_iff, sameLetters_iff, eq_comm]

end Text

end HeaderCards
