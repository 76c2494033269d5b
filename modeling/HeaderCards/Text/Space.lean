import HeaderCards.Text
import HeaderCards.Text.CharClass

/-!
# White space

Trimming, blank lines and the cut into words all use the twenty-five white space
characters of Unicode. Trimming is characterised by what it leaves: a text with no white
space at either end. Words are the maximal runs without white space.
-/

namespace HeaderCards.Text

/-- The white space characters. -/
def spaces : CharClass :=
  [(0x09, 0x0D), (0x20, 0x20), (0x85, 0x85), (0xA0, 0xA0), (0x1680, 0x1680),
   (0x2000, 0x200A), (0x2028, 0x2029), (0x202F, 0x202F), (0x205F, 0x205F), (0x3000, 0x3000)]

/-- The character is white space. -/
def isSpace (c : Char) : Bool := spaces.has c

/-- Every character is white space; the empty text is blank. -/
def isBlank (t : Text) : Bool := t.all isSpace

@[simp] theorem isBlank_nil : isBlank [] = true := rfl

@[simp] theorem isBlank_cons (c : Char) (t : Text) :
    isBlank (c :: t) = (isSpace c && isBlank t) := rfl

@[simp] theorem isBlank_append (a b : Text) : isBlank (a ++ b) = (isBlank a && isBlank b) := by
  simp [isBlank]

/-! ## Trimming -/

/-- The text without the white space at its front. -/
def trimStart (t : Text) : Text := t.dropWhile isSpace

/-- The text without the white space at its end. -/
def trimEnd (t : Text) : Text := (t.reverse.dropWhile isSpace).reverse

/-- The text without the white space at either end. -/
def trim (t : Text) : Text := trimEnd (trimStart t)

@[simp] theorem trimStart_nil : trimStart [] = [] := rfl

@[simp] theorem trimEnd_nil : trimEnd [] = [] := rfl

@[simp] theorem trim_nil : trim [] = [] := rfl

/-- Only blank texts are trimmed to nothing from the front. -/
theorem trimStart_eq_nil_iff {t : Text} : trimStart t = [] ↔ isBlank t = true := by
  induction t with
  | nil => simp
  | cons c t ih =>
    cases hc : isSpace c
    · simp [trimStart, hc]
    · simpa [trimStart, hc] using ih

/-- Only blank texts are trimmed to nothing from the end. -/
theorem trimEnd_eq_nil_iff {t : Text} : trimEnd t = [] ↔ isBlank t = true := by
  have h := trimStart_eq_nil_iff (t := t.reverse)
  rw [isBlank, List.all_reverse] at h
  rw [trimEnd, List.reverse_eq_nil_iff]
  exact h

/-- What trimming the front takes away is blank. -/
theorem exists_trimStart (t : Text) : ∃ w, isBlank w = true ∧ t = w ++ trimStart t :=
  ⟨t.takeWhile isSpace, by simp [isBlank], by simp [trimStart]⟩

/-- What trimming the end takes away is blank. -/
theorem exists_trimEnd (t : Text) : ∃ w, isBlank w = true ∧ t = trimEnd t ++ w := by
  refine ⟨(t.reverse.takeWhile isSpace).reverse, by simp [isBlank], ?_⟩
  rw [trimEnd, ← List.reverse_append, List.takeWhile_append_dropWhile, List.reverse_reverse]

/-- Only blank texts are trimmed to nothing. -/
theorem trim_eq_nil_iff {t : Text} : trim t = [] ↔ isBlank t = true := by
  rw [trim, trimEnd_eq_nil_iff]
  obtain ⟨w, hw, ht⟩ := exists_trimStart t
  generalize trimStart t = s at ht ⊢
  rw [ht, isBlank_append, hw, Bool.true_and]

/-! ## Words -/

/-- The maximal runs of characters without white space, in order. -/
def words (t : Text) : List Text := (t.splitOnP isSpace).filter (· ≠ [])

@[simp] theorem words_nil : words [] = [] := rfl

/-- No word is empty. -/
theorem ne_nil_of_mem_words {t w : Text} (h : w ∈ words t) : w ≠ [] := by
  simpa using (List.mem_filter.mp h).2

end HeaderCards.Text
