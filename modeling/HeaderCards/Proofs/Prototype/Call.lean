import HeaderCards.Proofs.Text.Word
import HeaderCards.Proofs.Text.Words
import HeaderCards.Prototype.Declaration

/-!
# Calls in a text

A call is an identifier with an opening parenthesis behind it, white space between the two
apart. The name of a declaration is the one whose call begins first. Whether a call begins at
the front of a text can be told from what stands before the first parenthesis, so the name is
found in any front part that has a call, whatever follows.
-/

namespace HeaderCards

/-- The text is an identifier. -/
def Text.IsIdentifier (t : Text) : Prop :=
  ∃ c cs, t = c :: cs ∧ Text.isWordStart c = true ∧ ∀ x ∈ cs, Text.isWord x = true

namespace Text.IsIdentifier

variable {t : Text} (h : t.IsIdentifier)

include h

theorem isWord : ∀ x ∈ t, Text.isWord x = true := by
  obtain ⟨c, cs, rfl, hc, hcs⟩ := h
  intro x hx
  rcases List.mem_cons.mp hx with rfl | hx
  · exact Text.isWord_of_isWordStart hc
  · exact hcs x hx

theorem ne_nil : t ≠ [] := by
  obtain ⟨c, cs, rfl, -⟩ := h
  exact List.cons_ne_nil c cs

theorem solid : Text.Solid t := fun x hx => Text.visible_of_isWord (h.isWord x hx)

theorem not_mem {c : Char} (hc : Text.isWord c = false) : c ∉ t := by
  intro hmem
  rw [h.isWord c hmem] at hc
  contradiction

end Text.IsIdentifier

namespace Declaration

/-- Behind the front of the text stands an identifier, and an opening parenthesis follows it,
white space apart. -/
def Calls (t front name : Text) : Prop :=
  name.IsIdentifier ∧
    ∃ gap behind, Text.isBlank gap = true ∧ t = front ++ (name ++ (gap ++ '(' :: behind))

theorem calls_cons_iff {c d : Char} {t front name : Text} :
    Calls (c :: t) (d :: front) name ↔ c = d ∧ Calls t front name := by
  simp only [Calls, List.cons_append, List.cons.injEq]
  constructor
  · rintro ⟨hname, gap, behind, hgap, rfl, ht⟩
    exact ⟨rfl, hname, gap, behind, hgap, ht⟩
  · rintro ⟨rfl, hname, gap, behind, hgap, ht⟩
    exact ⟨hname, gap, behind, hgap, rfl, ht⟩

/-- A text has a call only where it has an opening parenthesis. -/
theorem mem_of_calls {t front name : Text} (h : Calls t front name) : '(' ∈ t := by
  obtain ⟨-, gap, behind, -, rfl⟩ := h
  simp

/-- What stands before the first opening parenthesis tells whether a call begins the text. -/
theorem calls_nil_iff {p : Text} (hp : '(' ∉ p) (behind name : Text) :
    Calls (p ++ '(' :: behind) [] name ↔
      name.IsIdentifier ∧ ∃ gap, Text.isBlank gap = true ∧ p = name ++ gap := by
  simp only [Calls, List.nil_append]
  refine and_congr_right fun hname => ?_
  constructor
  · rintro ⟨gap, rest, hgap, ht⟩
    have hclosed : '(' ∉ name ++ gap := by
      intro hm
      rcases List.mem_append.mp hm with hm | hm
      · exact hname.not_mem (by decide) hm
      · exact absurd (List.all_eq_true.mp hgap '(' hm) (by decide)
    rw [← List.append_assoc] at ht
    exact ⟨gap, hgap, (Text.eq_of_append_cons_eq hp hclosed ht).1⟩
  · rintro ⟨gap, hgap, rfl⟩
    exact ⟨gap, behind, hgap, List.append_assoc ..⟩

/-- Behind a front part with a parenthesis nothing decides whether a call begins the text. -/
theorem calls_nil_append_iff {a name : Text} (ha : '(' ∈ a) (b : Text) :
    Calls (a ++ b) [] name ↔ Calls a [] name := by
  obtain ⟨p, rest, rfl, hp⟩ := List.eq_append_cons_of_mem ha
  rw [List.append_assoc, List.cons_append, calls_nil_iff hp, calls_nil_iff hp]

/-- A text opens a call when a parenthesis follows its white space. -/
theorem opensCall_iff {t : Text} :
    opensCall t = true ↔ ∃ gap behind, Text.isBlank gap = true ∧ t = gap ++ '(' :: behind := by
  rw [opensCall, Text.startsWith_iff]
  constructor
  · rintro ⟨behind, hbehind⟩
    obtain ⟨gap, hgap, ht⟩ := Text.exists_trimStart t
    exact ⟨gap, behind, hgap, by rw [ht, ← hbehind]; rfl⟩
  · rintro ⟨gap, behind, hgap, rfl⟩
    rw [Text.trimStart_blank_append hgap, Text.trimStart_cons_of_visible (by decide)]
    exact ⟨behind, rfl⟩

/-- Neither white space nor an opening parenthesis continues an identifier. -/
theorem isWord_of_gap {gap : Text} (hgap : Text.isBlank gap = true) (behind : Text) :
    ∀ x ∈ (gap ++ '(' :: behind).head?, Text.isWord x = false := by
  cases gap with
  | nil => simpa using (by decide : Text.isWord '(' = false)
  | cons g gap =>
    rw [Text.isBlank_cons, Bool.and_eq_true] at hgap
    simpa using Text.isWord_of_isSpace hgap.1

/-- The identifier that the text opens with is the one whose call begins it. -/
theorem callee?_eq_some_iff {t name : Text} : callee? t = some name ↔ Calls t [] name := by
  cases t with
  | nil =>
    refine ⟨fun h => by contradiction, fun h => ?_⟩
    exact absurd (mem_of_calls h) (by simp)
  | cons c cs =>
    simp only [callee?, Calls, List.nil_append]
    constructor
    · intro h
      split at h
      · next hstart =>
        cases h
        rw [Bool.and_eq_true, opensCall_iff] at hstart
        obtain ⟨hc, gap, behind, hgap, hcs⟩ := hstart
        refine ⟨⟨c, _, rfl, hc, List.all_eq_true.mp List.all_takeWhile⟩, gap, behind, hgap, ?_⟩
        rw [← hcs, List.cons_append, List.takeWhile_append_dropWhile]
      · contradiction
    · rintro ⟨⟨d, ds, rfl, hd, hds⟩, gap, behind, hgap, ht⟩
      rw [List.cons_append] at ht
      obtain ⟨rfl, rfl⟩ := List.cons.inj ht
      have hcall : opensCall (gap ++ '(' :: behind) = true :=
        opensCall_iff.mpr ⟨gap, behind, hgap, rfl⟩
      obtain ⟨htake, hdrop⟩ := Text.span_append hds (isWord_of_gap hgap behind)
      rw [htake, hdrop, hd, hcall]
      rfl

theorem callee?_eq_none_iff {t : Text} : callee? t = none ↔ ∀ name, ¬ Calls t [] name := by
  rw [Option.eq_none_iff_forall_ne_some]
  exact forall_congr' fun name => not_congr callee?_eq_some_iff

/-- The call of this name is the one that begins first. -/
def FirstCall (t name : Text) : Prop :=
  ∃ front, Calls t front name ∧
    ∀ front' name', Calls t front' name' → front.length ≤ front'.length

/-- A call that begins the text is the first one. -/
theorem firstCall_iff_of_calls {t callee : Text} (h : callee? t = some callee) (name : Text) :
    FirstCall t name ↔ callee = name := by
  constructor
  · rintro ⟨front, hfront, hleast⟩
    have hnil : front = [] := List.length_eq_zero_iff.mp
      (Nat.le_zero.mp (hleast [] callee (callee?_eq_some_iff.mp h)))
    subst hnil
    rw [callee?_eq_some_iff.mpr hfront] at h
    exact (Option.some.inj h).symm
  · rintro rfl
    exact ⟨[], callee?_eq_some_iff.mp h, fun _ _ _ => Nat.zero_le _⟩

/-- When no call begins the text, the first one is the first behind its first character. -/
theorem firstCall_cons_iff {c : Char} {cs : Text} (h : callee? (c :: cs) = none) (name : Text) :
    FirstCall (c :: cs) name ↔ FirstCall cs name := by
  have hnot : ∀ m, ¬ Calls (c :: cs) [] m := callee?_eq_none_iff.mp h
  constructor
  · rintro ⟨front, hfront, hleast⟩
    cases front with
    | nil => exact absurd hfront (hnot name)
    | cons d front =>
      obtain ⟨rfl, hbehind⟩ := calls_cons_iff.mp hfront
      refine ⟨front, hbehind, fun front' name' hcall => ?_⟩
      exact Nat.le_of_succ_le_succ (hleast (c :: front') name' (calls_cons_iff.mpr ⟨rfl, hcall⟩))
  · rintro ⟨front, hfront, hleast⟩
    refine ⟨c :: front, calls_cons_iff.mpr ⟨rfl, hfront⟩, fun front' name' hcall => ?_⟩
    cases front' with
    | nil => exact absurd hcall (hnot name')
    | cons d front' => exact Nat.succ_le_succ (hleast front' name' (calls_cons_iff.mp hcall).2)

/-- The name of a declaration is the one that is called first. -/
theorem functionName?_eq_some_iff {t name : Text} :
    functionName? t = some name ↔ FirstCall t name := by
  induction t with
  | nil =>
    refine ⟨fun h => by contradiction, ?_⟩
    rintro ⟨front, hcall, -⟩
    exact absurd (mem_of_calls hcall) (by simp)
  | cons c cs ih =>
    rw [functionName?_cons]
    cases h : callee? (c :: cs) with
    | some callee => rw [firstCall_iff_of_calls h, Option.some_or, Option.some.injEq]
    | none => rw [firstCall_cons_iff h, Option.none_or, ih]

/-- A declaration has no name when its text has no call. -/
theorem functionName?_eq_none_iff {t : Text} :
    functionName? t = none ↔ ∀ front name, ¬ Calls t front name := by
  induction t with
  | nil => exact ⟨fun _ front name h => absurd (mem_of_calls h) (by simp), fun _ => rfl⟩
  | cons c cs ih =>
    rw [functionName?_cons, Option.or_eq_none_iff, callee?_eq_none_iff, ih]
    constructor
    · rintro ⟨hnil, hcons⟩ front name hcall
      cases front with
      | nil => exact hnil name hcall
      | cons d front => exact hcons front name (calls_cons_iff.mp hcall).2
    · exact fun h => ⟨h [], fun front name hcall =>
        h (c :: front) name (calls_cons_iff.mpr ⟨rfl, hcall⟩)⟩

/-- The name of a declaration is an identifier. -/
theorem isIdentifier_of_functionName? {t name : Text} (h : functionName? t = some name) :
    name.IsIdentifier := by
  obtain ⟨front, hcall, -⟩ := functionName?_eq_some_iff.mp h
  exact hcall.1

/-- A text whose declaration has a name has an opening parenthesis. -/
theorem mem_of_functionName? {t name : Text} (h : functionName? t = some name) : '(' ∈ t := by
  obtain ⟨front, hcall, -⟩ := functionName?_eq_some_iff.mp h
  exact mem_of_calls hcall

/-- A front part with a parenthesis tells which call begins the text. -/
theorem callee?_append {a : Text} (ha : '(' ∈ a) (b : Text) : callee? (a ++ b) = callee? a := by
  ext name
  rw [callee?_eq_some_iff, callee?_eq_some_iff, calls_nil_append_iff ha]

/-- The name that is found in a front part is the name of the whole. -/
theorem functionName?_append {a name : Text} (h : functionName? a = some name) (b : Text) :
    functionName? (a ++ b) = some name := by
  induction a with
  | nil => contradiction
  | cons c cs ih =>
    have hcallee := callee?_append (mem_of_functionName? h) b
    rw [functionName?_cons] at h
    rw [List.cons_append] at hcallee ⊢
    rw [functionName?_cons, hcallee]
    cases hc : callee? (c :: cs) with
    | some callee => rwa [hc, Option.some_or] at h
    | none =>
      rw [hc, Option.none_or] at h
      rw [Option.none_or, ih h]

/-- The identifier that the text opens with is its name. -/
theorem functionName?_of_calls_nil {t name : Text} (h : Calls t [] name) :
    functionName? t = some name := by
  have hcallee := callee?_eq_some_iff.mpr h
  cases t with
  | nil => contradiction
  | cons c cs => rw [functionName?_cons, hcallee, Option.some_or]

/-- White space in front of an identifier interrupts what begins earlier. -/
theorem callee?_of_space {t a name : Text} {w : Char} (hw : Text.isSpace w = true) (ha : '(' ∉ a)
    (h : Calls t (a ++ [w]) name) : callee? t = none := by
  obtain ⟨hname, after, behind, hafter, rfl⟩ := h
  have hblank : ∀ {v : Text}, Text.isBlank v = true → ∀ c ∈ v, Text.isSpace c = true :=
    fun hv => List.all_eq_true.mp hv
  have hwopen : w ≠ '(' := by
    rintro rfl
    exact absurd hw (by decide)
  have hfront : '(' ∉ a ++ w :: (name ++ after) := by
    simp only [List.mem_append, List.mem_cons, not_or]
    exact ⟨ha, hwopen.symm, hname.not_mem (by decide),
      fun hc => absurd (hblank hafter _ hc) (by decide)⟩
  have hsplit : (a ++ [w]) ++ (name ++ (after ++ '(' :: behind)) =
      (a ++ w :: (name ++ after)) ++ '(' :: behind := by simp
  rw [hsplit, callee?_eq_none_iff]
  intro m hcalls
  obtain ⟨hm, gap, hgap, heq⟩ := (calls_nil_iff hfront behind m).mp hcalls
  obtain ⟨c, cs, hcons, -⟩ := id hname
  have hc : c ∈ name := hcons ▸ List.mem_cons_self ..
  -- the gap cannot reach over the identifier, nor the name over the white space
  have hgap' : c ∉ gap := fun hmem => by
    simpa [hname.solid c hc] using hblank hgap c hmem
  rcases List.append_eq_append_iff.mp heq with ⟨v, rfl, hv⟩ | ⟨v, -, rfl⟩
  · cases v with
    | nil =>
      rw [List.nil_append] at hv
      exact hgap' (hv ▸ List.mem_cons_of_mem _ (List.mem_append_left _ hc))
    | cons d v =>
      obtain ⟨rfl, -⟩ := List.cons.inj hv
      exact hm.solid.not_mem hw (by simp)
  · exact hgap' (List.mem_append_right v (List.mem_cons_of_mem _ (List.mem_append_left _ hc)))

/-- The name of a declaration is the first one that is called behind white space, when no
parenthesis stands in front of it. -/
theorem functionName?_of_calls {t a name : Text} {w : Char} (hw : Text.isSpace w = true)
    (ha : '(' ∉ a) (h : Calls t (a ++ [w]) name) : functionName? t = some name := by
  have hnone := callee?_of_space hw ha h
  obtain ⟨hname, after, behind, hafter, rfl⟩ := h
  induction a with
  | nil =>
    have hcall : Calls (name ++ (after ++ '(' :: behind)) [] name :=
      ⟨hname, after, behind, hafter, rfl⟩
    rw [List.nil_append, List.singleton_append] at hnone ⊢
    rw [functionName?_cons, hnone, Option.none_or, functionName?_of_calls_nil hcall]
  | cons x a ih =>
    have ha' : '(' ∉ a := fun hm => ha (List.mem_cons_of_mem x hm)
    have hrest : callee? ((a ++ [w]) ++ (name ++ (after ++ '(' :: behind))) = none :=
      callee?_of_space hw ha' ⟨hname, after, behind, hafter, rfl⟩
    rw [List.cons_append, List.cons_append] at hnone ⊢
    rw [functionName?_cons, hnone, Option.none_or, ih ha' hrest]

/-- The name of a declaration is found behind a return type without parentheses. -/
theorem functionName?_behind {a name : Text} (ha : '(' ∉ a) (hname : name.IsIdentifier)
    (t : Text) : functionName? (a ++ ' ' :: (name ++ '(' :: t)) = some name :=
  functionName?_of_calls (w := ' ') (by decide) ha ⟨hname, [], t, rfl, by simp⟩

end Declaration

end HeaderCards
