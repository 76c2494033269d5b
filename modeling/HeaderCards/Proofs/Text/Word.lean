import HeaderCards.Text.Space
import HeaderCards.Text.Word

/-!
# Word characters

Letters, digits and underscores are word characters, and no word character is white space.
-/

namespace HeaderCards.Text

/-- Letters, digits and underscores are ASCII word characters. -/
theorem asciiWord_of_isAlphanum {c : Char} (h : c.isAlphanum = true ∨ c = '_') :
    asciiWord.has c = true := by
  have hletter : c.isAlpha = (decide (c.val ≥ 'A'.val ∧ c.val ≤ 'Z'.val) ||
      (decide (c.val ≥ 'a'.val) && decide (c.val ≤ 'z'.val))) := rfl
  rw [CharClass.has_iff]
  simp only [Char.isAlphanum, hletter, Char.isDigit, Bool.or_eq_true, Bool.and_eq_true,
    decide_eq_true_eq, UInt32.le_iff_toNat_le, ge_iff_le] at h
  rcases h with ((h | h) | h) | rfl
  · exact ⟨(0x41, 0x5A), by simp [asciiWord], h⟩
  · exact ⟨(0x61, 0x7A), by simp [asciiWord], h⟩
  · exact ⟨(0x30, 0x39), by simp [asciiWord], h⟩
  · exact ⟨(0x5F, 0x5F), by simp [asciiWord], by decide⟩

/-- An identifier begins with a word character. -/
theorem isWord_of_isWordStart {c : Char} (h : isWordStart c = true) : isWord c = true := by
  rw [isWordStart, Bool.or_eq_true, beq_iff_eq] at h
  have hascii : asciiWord.has c = true := by
    refine asciiWord_of_isAlphanum (h.imp (fun halpha => ?_) id)
    rw [Char.isAlphanum, halpha, Bool.true_or]
  rw [isWord, hascii, Bool.true_or]

/-- White space interrupts a word. -/
theorem visible_of_isWord {c : Char} (h : isWord c = true) : isSpace c = false := by
  rw [isWord, Bool.or_eq_true, Bool.and_eq_true] at h
  rcases h with h | ⟨-, h⟩
  · exact CharClass.not_has_of_apart (by decide) h
  · exact CharClass.not_has_of_apart (by decide +kernel) h

theorem isWord_of_isSpace {c : Char} (h : isSpace c = true) : isWord c = false := by
  rw [← Bool.not_eq_true]
  intro hword
  rw [visible_of_isWord hword] at h
  contradiction

end HeaderCards.Text
