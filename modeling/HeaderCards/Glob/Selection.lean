import HeaderCards.Glob

/-!
# Selecting by pattern

A pattern accepts a text step by step. Where a step stands for any number of characters,
every way to go on is open, and trying one after the other takes time that grows with each
such step. So all ways are followed at once: from step to step goes the list of all that may
be left of the text, the longest first. What may be left is always an end of the text, so
the list is never longer than the text, and the ends of its first entry are all ends there
are. The main statement is that this selects exactly the texts the pattern accepts.
-/

namespace HeaderCards.Glob

/-- The step accepts this one character. -/
def tokenAccepts : GlobToken → Char → Bool
  | .char c, d => c = d
  | .anyChar, _ => true
  | .within ranges, d => ranges.any fun r => r.1 ≤ d && d ≤ r.2
  | .outside ranges, d => !ranges.any fun r => r.1 ≤ d && d ≤ r.2
  | .anySequence, _ => false
  | .anyFolders, _ => false

/-- The ends of a text, from the whole to the empty one. -/
def ends : Text → List Text
  | [] => [[]]
  | c :: cs => (c :: cs) :: ends cs

/-- The ends of a text that stand behind a slash. -/
def folderEnds : Text → List Text
  | [] => []
  | c :: cs => if c = '/' then cs :: folderEnds cs else folderEnds cs

/-- The pattern accepts the whole text. -/
def accepts : Glob → Text → Bool
  | [], t => t.isEmpty
  | .anySequence :: g, t => (ends t).any (accepts g)
  | .anyFolders :: g, t => accepts g t || (folderEnds t).any (accepts g) || accepts g []
  | _ :: _, [] => false
  | token :: g, c :: cs => tokenAccepts token c && accepts g cs

/-- The ends of a text are its suffixes. -/
@[simp] theorem mem_ends_iff {s t : Text} : s ∈ ends t ↔ s <:+ t := by
  induction t with
  | nil => simp [ends]
  | cons c cs ih => simp [ends, ih, List.suffix_cons_iff]

/-- The ends behind a slash are those of every longer end as well. -/
theorem folderEnds_subset {s t : Text} (h : s <:+ t) : folderEnds s ⊆ folderEnds t := by
  obtain ⟨front, rfl⟩ := h
  induction front with
  | nil => simp
  | cons c cs ih =>
    intro x hx
    rw [List.cons_append, folderEnds]
    split
    · exact List.mem_cons_of_mem _ (ih hx)
    · exact ih hx

/-- The ends behind a slash are among the ends, in the same order. -/
theorem folderEnds_sublist (t : Text) : (folderEnds t).Sublist (ends t) := by
  have h : (folderEnds t).Sublist (ends t).tail := by
    induction t with
    | nil => simp [folderEnds]
    | cons c cs ih =>
      have hends : ends cs = cs :: (ends cs).tail := by cases cs <;> rfl
      rw [folderEnds, ends, List.tail_cons]
      split
      · rw [hends]
        exact ih.cons_cons cs
      · exact ih.trans (List.tail_sublist _)
  exact h.trans (List.tail_sublist _)

/-- The first text is as long as the second. -/
def notShorter (a b : Text) : Bool := b.length ≤ a.length

/-- What is left of a text behind a step that stands for one character. -/
def afterChar? (token : GlobToken) : Text → Option Text
  | [] => none
  | c :: cs => if tokenAccepts token c then some cs else none

/-- All that may be left behind a step, given all that may be left in front of it. -/
def advance (rests : List Text) (token : GlobToken) : List Text :=
  match rests, token with
  | [], _ => []
  | longest :: _, .anySequence => ends longest
  | longest :: _, .anyFolders =>
    rests.merge ((folderEnds longest ++ [[]]).filter (· ∉ rests)) notShorter
  | _, _ => rests.filterMap (afterChar? token)

/-- The pattern selects the text: nothing may be left behind its last step. -/
def selects (g : Glob) (t : Text) : Bool := (g.foldl advance [t]).any List.isEmpty

/-- Every text is an end of all texts in front of it. -/
abbrev Nested (rests : List Text) : Prop := rests.Pairwise fun a b => b <:+ a

/-- The ends of a text are nested. -/
theorem nested_ends (t : Text) : Nested (ends t) := by
  induction t with
  | nil => simp [ends]
  | cons c cs ih =>
    refine List.pairwise_cons.mpr ⟨fun s hs => ?_, ih⟩
    exact (mem_ends_iff.mp hs).trans (List.suffix_cons _ _)

/-- The ends behind slashes and the empty end are nested. -/
theorem nested_folderEnds (t : Text) : Nested (folderEnds t ++ [[]]) := by
  refine List.pairwise_append.mpr ⟨(nested_ends t).sublist (folderEnds_sublist t), by simp, ?_⟩
  intro a _ b hb
  simp [List.mem_singleton.mp hb]

/-- Nested texts with a first one are ends of it. -/
theorem Nested.suffix {longest : Text} {rests : List Text} (h : Nested (longest :: rests)) :
    ∀ s ∈ longest :: rests, s <:+ longest := by
  intro s hs
  rcases List.mem_cons.mp hs with rfl | hs
  · exact List.suffix_refl s
  · exact List.rel_of_pairwise_cons h hs

/-- Merging nested texts by length leaves them nested when all are ends of one text. -/
theorem nested_merge {t : Text} {a b : List Text} (ha : Nested a) (hb : Nested b)
    (h : ∀ s ∈ a ++ b, s <:+ t) : Nested (a.merge b notShorter) := by
  have hlen : ∀ {l : List Text}, Nested l → l.Pairwise fun x y => notShorter x y = true :=
    fun hl => hl.imp fun hs => by simpa [notShorter] using hs.length_le
  have hsorted := @List.pairwise_merge Text notShorter
    (by simp only [notShorter, decide_eq_true_eq]; omega)
    (by simp only [notShorter, Bool.or_eq_true, decide_eq_true_eq]; omega)
    a b (hlen ha) (hlen hb)
  refine hsorted.imp_of_mem fun hx hy hxy => ?_
  have hmem : ∀ {s}, s ∈ a.merge b notShorter → s <:+ t := fun hs =>
    h _ (List.mem_append.mpr (List.mem_merge.mp hs))
  exact List.suffix_of_suffix_length_le (hmem hy) (hmem hx) (by simpa [notShorter] using hxy)

/-- Every step leaves nested texts nested. -/
theorem nested_advance {rests : List Text} (h : Nested rests) (token : GlobToken) :
    Nested (advance rests token) := by
  have hchar : Nested (rests.filterMap (afterChar? token)) := by
    refine h.filterMap _ fun a b hab x hx y hy => ?_
    cases a with
    | nil => simp [afterChar?] at hx
    | cons c cs =>
      cases b with
      | nil => simp [afterChar?] at hy
      | cons d ds =>
        simp only [afterChar?, Option.ite_none_right_eq_some, Option.some.injEq] at hx hy
        obtain ⟨-, rfl⟩ := hx
        obtain ⟨-, rfl⟩ := hy
        rcases List.suffix_cons_iff.mp hab with heq | hs
        · exact (List.cons.inj heq).2 ▸ List.suffix_refl _
        · exact (List.suffix_cons d ds).trans hs
  cases rests with
  | nil => simp [advance]
  | cons longest rest =>
    cases token with
    | anySequence => exact nested_ends longest
    | anyFolders =>
      refine nested_merge (t := longest) h ((nested_folderEnds longest).filter _) ?_
      intro s hs
      rcases List.mem_append.mp hs with hs | hs
      · exact h.suffix s hs
      · rcases List.mem_append.mp (List.mem_filter.mp hs).1 with hs | hs
        · exact mem_ends_iff.mp ((folderEnds_sublist longest).subset hs)
        · simp [List.mem_singleton.mp hs]
    | char | anyChar | within | outside => exact hchar

/-- Passing a character comes first, and the rest of the pattern behind it. -/
theorem any_filterMap_afterChar? (rests : List Text) {token : GlobToken} {g : Glob}
    (h : ∀ s, accepts (token :: g) s = ((afterChar? token s).map (accepts g)).getD false) :
    (rests.filterMap (afterChar? token)).any (accepts g) = rests.any (accepts (token :: g)) := by
  induction rests with
  | nil => rfl
  | cons s rests ih =>
    rw [List.any_cons, h s, ← ih]
    cases hs : afterChar? token s <;> simp [hs]

/-- A sequence accepts from the longest text whatever it accepts from any. -/
theorem any_ends {longest : Text} {rest : List Text} (h : Nested (longest :: rest)) (g : Glob) :
    (ends longest).any (accepts g) = (longest :: rest).any (accepts (.anySequence :: g)) := by
  rw [Bool.eq_iff_iff]
  simp only [accepts, List.any_eq_true, mem_ends_iff]
  constructor
  · rintro ⟨e, he, ha⟩
    exact ⟨longest, List.mem_cons_self, e, he, ha⟩
  · rintro ⟨s, hs, e, he, ha⟩
    exact ⟨e, he.trans (h.suffix s hs), ha⟩

/-- Folders accept from the longest text, and from all texts as they stand, whatever they
accept from any. -/
theorem any_merge {longest : Text} {rest : List Text} (h : Nested (longest :: rest)) (g : Glob) :
    (advance (longest :: rest) .anyFolders).any (accepts g) =
      (longest :: rest).any (accepts (.anyFolders :: g)) := by
  rw [Bool.eq_iff_iff]
  simp only [accepts, advance, List.any_eq_true, List.mem_merge, List.mem_filter,
    List.mem_append, List.mem_singleton, decide_eq_true_eq, Bool.or_eq_true]
  constructor
  · rintro ⟨x, hx | ⟨hx | rfl, -⟩, ha⟩
    · exact ⟨x, hx, .inl (.inl ha)⟩
    · exact ⟨longest, List.mem_cons_self, .inl (.inr ⟨x, hx, ha⟩)⟩
    · exact ⟨longest, List.mem_cons_self, .inr ha⟩
  · have hmem : ∀ x, accepts g x = true → x ∈ folderEnds longest ∨ x = [] →
        ∃ x, (x ∈ longest :: rest ∨ (x ∈ folderEnds longest ∨ x = []) ∧ x ∉ longest :: rest) ∧
        accepts g x = true := fun x ha hx =>
      if hr : x ∈ longest :: rest then ⟨x, .inl hr, ha⟩ else ⟨x, .inr ⟨hx, hr⟩, ha⟩
    rintro ⟨s, hs, (ha | ⟨e, he, ha⟩) | ha⟩
    · exact ⟨s, .inl hs, ha⟩
    · exact hmem e ha (.inl (folderEnds_subset (h.suffix s hs) he))
    · exact hmem [] ha (.inr rfl)

/-- A step may be passed first and the rest of the pattern tried behind it. -/
theorem any_advance {rests : List Text} (h : Nested rests) (token : GlobToken) (g : Glob) :
    (advance rests token).any (accepts g) = rests.any (accepts (token :: g)) := by
  cases rests with
  | nil => rfl
  | cons longest rest =>
    cases token with
    | anySequence => exact any_ends h g
    | anyFolders => exact any_merge h g
    | char | anyChar | within | outside =>
      refine any_filterMap_afterChar? _ fun s => ?_
      cases s with
      | nil => rfl
      | cons c cs =>
        change (tokenAccepts _ c && accepts g cs) = _
        rw [afterChar?]
        split <;> simp_all

/-- Following all ways finds whether the pattern accepts one of the texts. -/
theorem any_foldl_advance {rests : List Text} (h : Nested rests) (g : Glob) :
    (g.foldl advance rests).any List.isEmpty = rests.any (accepts g) := by
  induction g generalizing rests with
  | nil => rfl
  | cons token g ih => rw [List.foldl_cons, ih (nested_advance h token), any_advance h]

/-- A pattern selects the texts it accepts. -/
theorem selects_eq_accepts (g : Glob) (t : Text) : g.selects t = g.accepts t := by
  rw [selects, any_foldl_advance (List.pairwise_singleton _ t) g, List.any_cons, List.any_nil,
    Bool.or_false]

end HeaderCards.Glob
