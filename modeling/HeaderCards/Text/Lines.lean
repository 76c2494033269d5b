import HeaderCards.Text

/-!
# Lines

A line ends at a line feed, and a carriage return directly before that line feed belongs
to the ending. Characters after the last line feed form a last line of their own, which
keeps any carriage return, and a text that ends in a line feed has no empty line after it.
-/

namespace HeaderCards.Text

/-- The line without one carriage return at its end. -/
def dropReturn (l : Text) : Text := if l.getLast? = some '\r' then l.dropLast else l

/-- The lines of a text, without their endings. -/
def lines (t : Text) : List Text :=
  let pieces := t.splitOn '\n'
  pieces.dropLast.map dropReturn ++ pieces.getLast?.toList.filter (· ≠ [])

/-- The text that writes each line with a line feed behind it. -/
def unlines (ls : List Text) : Text := ls.flatMap (· ++ ['\n'])

@[simp] theorem unlines_nil : unlines [] = [] := rfl

@[simp] theorem unlines_cons (l : Text) (ls : List Text) :
    unlines (l :: ls) = l ++ '\n' :: unlines ls := by simp [unlines]

@[simp] theorem unlines_append (a b : List Text) : unlines (a ++ b) = unlines a ++ unlines b := by
  simp [unlines]

@[simp] theorem lines_nil : lines [] = [] := by simp [lines]

/-- A first line that ends in a line feed is cut off whole. -/
theorem lines_append_newline {l : Text} (h : '\n' ∉ l) (t : Text) :
    lines (l ++ '\n' :: t) = dropReturn l :: lines t := by
  obtain ⟨p, ps, hp⟩ := List.exists_cons_of_ne_nil (List.splitOn_ne_nil '\n' t)
  simp [lines, List.splitOn_append_cons_self_of_not_mem h, hp]

/-- Lines that neither hold a line feed nor end in a carriage return are read back. -/
theorem lines_unlines {ls : List Text}
    (h : ∀ l ∈ ls, '\n' ∉ l ∧ l.getLast? ≠ some '\r') : lines (unlines ls) = ls := by
  induction ls with
  | nil => simp
  | cons l ls ih =>
    have hl := h l (by simp)
    rw [unlines_cons, lines_append_newline hl.1, ih fun k hk => h k (by simp [hk])]
    simp [dropReturn, hl.2]

end HeaderCards.Text
