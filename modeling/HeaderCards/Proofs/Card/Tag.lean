import HeaderCards.Card.Tag
import HeaderCards.Proofs.Text.Space
import HeaderCards.Proofs.Text.Word
import Mathlib.Data.List.TakeWhile

/-!
# Written tags

A tag is written with its direction in brackets, and reading finds the direction and the
name again. A tag that has been read has a name that can be written.
-/

namespace HeaderCards.Tag

/-- The tag names its parameter with name characters only. -/
def Named (t : Tag) : Prop := t.name ≠ [] ∧ ∀ c ∈ t.name, isNameChar c = true

-- The test runs over the name, and not over all characters.
instance (t : Tag) : Decidable t.Named :=
  @instDecidableAnd _ _ inferInstance (List.decidableBAll (isNameChar · = true) t.name)

/-- A character of a name is not white space. -/
theorem visible_of_isNameChar {c : Char} (h : isNameChar c = true) : Text.isSpace c = false := by
  rw [isNameChar, Bool.or_eq_true, beq_iff_eq] at h
  exact CharClass.not_has_of_apart (by decide) (Text.asciiWord_of_isAlphanum h)

/-- The first brackets of a written tag hold the words of its direction, and its name stands
behind them. -/
private theorem fields?_write (t : Tag) :
    fields? t.write =
      some (t.direction.words, (Text.trimStart (' ' :: t.name)).takeWhile isNameChar) := by
  obtain ⟨name, direction⟩ := t
  cases direction <;> rfl

/-- A written tag is read back. -/
theorem read_write {t : Tag} (h : t.Named) : read t.write = .ok t := by
  obtain ⟨c, cs, hname⟩ := List.exists_cons_of_ne_nil h.1
  have hvisible : Text.isSpace c = false := visible_of_isNameChar (h.2 c (by simp [hname]))
  have hstart : Text.trimStart (' ' :: t.name) = t.name := by
    rw [Text.trimStart_cons_of_isSpace (by decide), hname, Text.trimStart_cons_of_visible hvisible]
  have hall : t.name.takeWhile isNameChar = t.name := List.takeWhile_eq_self_iff.mpr h.2
  have hwords : t.direction.words ≠ [] := by cases t.direction <;> decide
  have hdirection : Direction.ofWords? t.direction.words = some t.direction :=
    Direction.ofWords?_eq_some_iff.mpr rfl
  rw [read, fields?_write, hstart, hall]
  simp [hwords, h.1, hdirection]

/-- A written tag consists of its brackets and its name. -/
theorem mem_write {t : Tag} {c : Char} (h : c ∈ t.write) :
    c ∈ ("\\param[in,out] " : Text) ∨ c ∈ t.name := by
  obtain ⟨name, direction⟩ := t
  have hsplit : c ∈ ("\\param" : Text) ++ direction.tag ++ " " ∨ c ∈ name := List.mem_append.mp h
  refine hsplit.imp ?_ id
  cases direction
  · exact fun hc => (by decide : ("\\param[in] " : Text) ⊆ "\\param[in,out] ".toList) hc
  · exact fun hc => (by decide : ("\\param[out] " : Text) ⊆ "\\param[in,out] ".toList) hc
  · exact id

/-- A character that is no name character and stands in no brackets is not in a written tag. -/
theorem not_mem_write {t : Tag} (h : t.Named) {c : Char} (hc : isNameChar c = false)
    (hb : c ∉ ("\\param[in,out] " : Text)) : c ∉ t.write := by
  intro hmem
  rcases mem_write hmem with hmem | hmem
  · exact hb hmem
  · rw [h.2 c hmem] at hc
    contradiction

/-- The name on a tag line is cut off at the first character that is no name character. -/
private theorem isNameChar_of_fields? {line words name : Text}
    (h : fields? line = some (words, name)) : ∀ c ∈ name, isNameChar c = true := by
  induction line with
  | nil => simp [fields?] at h
  | cons c line ih =>
    rw [fields?] at h
    split at h
    · exact ih h
    · split at h
      · contradiction
      · cases h
        exact fun c hc => List.all_eq_true.mp List.all_takeWhile c hc

/-- A tag that has been read can be written. -/
theorem named_of_read {line : Text} {t : Tag} (h : read line = .ok t) : t.Named := by
  rw [read] at h
  cases hfields : fields? line with
  | none => simp [hfields] at h
  | some fields =>
    obtain ⟨words, name⟩ := fields
    simp only [hfields] at h
    split at h
    · contradiction
    · next hne =>
      split at h
      · contradiction
      · cases h
        exact ⟨fun he => hne (Or.inr he), isNameChar_of_fields? hfields⟩

end HeaderCards.Tag
