import HeaderCards.Proofs.Text.Pieces
import HeaderCards.Proofs.Text.Replace
import HeaderCards.Proofs.Text.Space
import Mathlib.Data.List.Infix

/-!
# Words

Words are separated by white space, so that a text is cut into the same words whatever white
space surrounds it. Words joined by single blanks are found again.
-/

namespace HeaderCards.Text

/-- The text holds no white space. -/
def Solid (t : Text) : Prop := ∀ c ∈ t, isSpace c = false

instance (t : Text) : Decidable (Solid t) := List.decidableBAll (isSpace · = false) t

theorem Solid.append {a b : Text} (ha : Solid a) (hb : Solid b) : Solid (a ++ b) :=
  fun c hc => (List.mem_append.mp hc).elim (ha c) (hb c)

/-- A text without white space does not hold a given white space character. -/
theorem Solid.not_mem {t : Text} (h : Solid t) {c : Char} (hc : isSpace c = true) : c ∉ t := by
  intro hmem
  rw [h c hmem] at hc
  contradiction

/-- White space separates the words on either side. -/
theorem words_append_cons {c : Char} (hc : isSpace c = true) (a b : Text) :
    words (a ++ c :: b) = words a ++ words b := by
  rw [words, words, words, List.splitOnP_append_cons a b hc, List.filter_append]

/-- White space at the front belongs to no word. -/
theorem words_cons_of_isSpace {c : Char} (hc : isSpace c = true) (t : Text) :
    words (c :: t) = words t :=
  words_append_cons hc [] t

/-- A text without white space is one word. -/
theorem words_of_solid {w : Text} (hne : w ≠ []) (h : Solid w) : words w = [w] := by
  rw [words, List.splitOnP_eq_singleton h]
  simp [hne]

/-- White space around a text belongs to no word. -/
theorem words_blank_append {w : Text} (hw : isBlank w = true) (t : Text) :
    words (w ++ t) = words t ∧ words (t ++ w) = words t := by
  induction w generalizing t with
  | nil => simp
  | cons c w ih =>
    rw [isBlank_cons, Bool.and_eq_true] at hw
    refine ⟨?_, ?_⟩
    · rw [List.cons_append, words_cons_of_isSpace hw.1, (ih hw.2 t).1]
    · have hblank : words w = [] := by simpa using (ih hw.2 []).1
      rw [words_append_cons hw.1, hblank, List.append_nil]

/-- Trimming changes no word. -/
theorem words_trim (t : Text) : words (trim t) = words t := by
  obtain ⟨v, hv, hstart⟩ := exists_trimStart t
  obtain ⟨w, hw, hend⟩ := exists_trimEnd (trimStart t)
  calc words (trim t) = words (trim t ++ w) := ((words_blank_append hw (trim t)).2).symm
    _ = words (v ++ trimStart t) := by rw [(words_blank_append hv _).1, trim, ← hend]
    _ = words t := by rw [← hstart]

/-- A text is a word, or white space ends its first word and more may follow. -/
theorem words_induction {P : Text → Prop} (word : ∀ w, Solid w → P w)
    (cut : ∀ w c t, Solid w → isSpace c = true → P t → P (w ++ c :: t)) (t : Text) : P t := by
  induction hlength : t.length using Nat.strongRecOn generalizing t with
  | ind n ih =>
    have hsplit := List.takeWhile_append_dropWhile (p := (!isSpace ·)) (l := t)
    have hword : Solid (t.takeWhile (!isSpace ·)) := fun c hc => by
      simpa using List.mem_takeWhile_imp hc
    cases hrest : t.dropWhile (!isSpace ·) with
    | nil =>
      rw [hrest, List.append_nil] at hsplit
      exact hsplit ▸ word _ hword
    | cons c rest =>
      have hc : isSpace c = true := by
        have hhead := List.head?_dropWhile_not (!isSpace ·) t
        simpa [hrest] using hhead
      rw [hrest] at hsplit
      have hshort : rest.length < n := by
        rw [← hlength, ← hsplit, List.length_append, List.length_cons]
        omega
      exact hsplit ▸ cut _ c rest hword hc (ih _ hshort rest rfl)

/-- A word holds no white space and stands in the text. -/
theorem of_mem_words {t w : Text} (h : w ∈ words t) : Solid w ∧ w <:+: t := by
  have hpiece : w ∈ t.splitOnP isSpace := (List.mem_filter.mp h).1
  exact ⟨eq_false_of_mem_splitOnP hpiece, isInfix_of_mem_splitOnP hpiece⟩

/-- A part without white space stands in one of the words. -/
theorem exists_mem_words_of_isInfix {part t : Text} (hne : part ≠ []) (hpart : Solid part)
    (h : part <:+: t) : ∃ w ∈ words t, part <:+: w := by
  induction t using words_induction with
  | word w hw =>
    have hw' : w ≠ [] := by
      rintro rfl
      exact hne (List.eq_nil_of_infix_nil h)
    exact ⟨w, by simp [words_of_solid hw' hw], h⟩
  | cut w c t hw hc ih =>
    rw [words_append_cons hc]
    rcases isInfix_of_append_cons (hpart.not_mem hc) h with h | h
    · have hw' : w ≠ [] := by
        rintro rfl
        exact hne (List.eq_nil_of_infix_nil h)
      exact ⟨w, by simp [words_of_solid hw' hw], h⟩
    · obtain ⟨v, hv, hi⟩ := ih h
      exact ⟨v, List.mem_append_right _ hv, hi⟩

/-- Only white space has no words. -/
theorem words_eq_nil_iff {t : Text} : words t = [] ↔ isBlank t = true := by
  constructor
  · intro h
    refine List.all_eq_true.mpr fun c hc => ?_
    by_contra hvisible
    have hpart : Solid [c] := by simpa [Solid] using hvisible
    obtain ⟨w, hw, -⟩ := exists_mem_words_of_isInfix (List.cons_ne_nil c []) hpart
      (List.singleton_infix_iff c t |>.mpr hc)
    rw [h] at hw
    contradiction
  · intro h
    simpa using (words_blank_append h []).1

/-- The first word of a text that begins with a visible character reaches to the first white
space. -/
theorem head?_words {c : Char} (hc : isSpace c = false) (t : Text) :
    (words (c :: t)).head? = some ((c :: t).takeWhile (!isSpace ·)) := by
  generalize hs : c :: t = s
  induction s using words_induction with
  | word w hw =>
    have hall : ∀ x ∈ w, (!isSpace x) = true := fun x hx => by simp [hw x hx]
    have hne : w ≠ [] := hs ▸ List.cons_ne_nil c t
    rw [words_of_solid hne hw, List.takeWhile_eq_self_iff.mpr hall, List.head?_cons]
  | cut w d s hw hd ih =>
    have hall : ∀ x ∈ w, (!isSpace x) = true := fun x hx => by simp [hw x hx]
    have hne : w ≠ [] := by
      rintro rfl
      rw [List.nil_append, List.cons.injEq] at hs
      rw [hs.1, hd] at hc
      contradiction
    rw [words_append_cons hd, words_of_solid hne hw, (span_append hall (by simp [hd])).1]
    rfl

/-- Words with one blank between two of them. -/
def joined (ws : List Text) : Text := List.intercalate " " ws

@[simp] theorem joined_nil : joined [] = [] := rfl

@[simp] theorem joined_singleton (w : Text) : joined [w] = w := List.intercalate_singleton

theorem joined_cons_cons (w v : Text) (ws : List Text) :
    joined (w :: v :: ws) = w ++ ' ' :: joined (v :: ws) := by
  rw [joined, List.intercalate_cons_cons, List.append_assoc]
  rfl

theorem isPrefix_joined (w : Text) (ws : List Text) : w <+: joined (w :: ws) := by
  cases ws with
  | nil => simp
  | cons v ws => exact ⟨_, (joined_cons_cons w v ws).symm⟩

/-- A text in front of joined words belongs to the first of them. -/
theorem append_joined (t w : Text) (ws : List Text) :
    t ++ joined (w :: ws) = joined ((t ++ w) :: ws) := by
  cases ws with
  | nil => simp
  | cons v ws => rw [joined_cons_cons, joined_cons_cons, List.append_assoc]

/-- Joined words are joined by a blank. -/
theorem joined_append (w : Text) (ws : List Text) (v : Text) (vs : List Text) :
    joined (w :: ws) ++ ' ' :: joined (v :: vs) = joined (w :: ws ++ v :: vs) := by
  induction ws generalizing w with
  | nil => rw [joined_singleton, List.singleton_append, joined_cons_cons]
  | cons u ws ih =>
    rw [joined_cons_cons, List.append_assoc, List.cons_append, ih]
    exact (joined_cons_cons w u (ws ++ v :: vs)).symm

/-- A character of joined texts stands between two of them or in one of them. -/
theorem mem_intercalate {c : Char} {sep : Text} {ts : List Text} (h : c ∈ List.intercalate sep ts) :
    c ∈ sep ∨ ∃ t ∈ ts, c ∈ t := by
  induction ts with
  | nil => contradiction
  | cons t ts ih =>
    cases ts with
    | nil =>
      rw [List.intercalate_singleton] at h
      exact Or.inr ⟨t, List.mem_cons_self .., h⟩
    | cons u ts =>
      rw [List.intercalate_cons_cons, List.mem_append, List.mem_append] at h
      rcases h with (h | h) | h
      · exact Or.inr ⟨t, List.mem_cons_self .., h⟩
      · exact Or.inl h
      · refine (ih h).imp id ?_
        rintro ⟨v, hv, hc⟩
        exact ⟨v, List.mem_cons_of_mem t hv, hc⟩

/-- Words joined by single blanks are found again. -/
theorem words_joined {ws : List Text} (h : ∀ w ∈ ws, w ≠ [] ∧ Solid w) :
    words (joined ws) = ws := by
  induction ws with
  | nil => rfl
  | cons w ws ih =>
    have hw := h w (List.mem_cons_self ..)
    cases ws with
    | nil => rw [joined_singleton, words_of_solid hw.1 hw.2]
    | cons v ws =>
      rw [joined_cons_cons, words_append_cons (by decide), words_of_solid hw.1 hw.2,
        ih fun u hu => h u (List.mem_cons_of_mem w hu), List.singleton_append]

end HeaderCards.Text
