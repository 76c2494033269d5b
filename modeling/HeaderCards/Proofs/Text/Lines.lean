import HeaderCards.Proofs.Text.Pieces
import HeaderCards.Proofs.Text.Space
import HeaderCards.Text.Lines

/-!
# The lines of a text

A line is a part of its text and holds no line feed. Where a line ends, a text can be cut in
two without changing its lines.
-/

namespace HeaderCards.Text

/-- The text is kept as it is when it is written between two line ends. -/
def IsLine (l : Text) : Prop := '\n' ∉ l ∧ l.getLast? ≠ some '\r'

instance (l : Text) : Decidable (IsLine l) :=
  inferInstanceAs (Decidable ('\n' ∉ l ∧ l.getLast? ≠ some '\r'))

/-- The text holds no line feed. -/
def OneLine (t : Text) : Prop := '\n' ∉ t

instance (t : Text) : Decidable (OneLine t) := inferInstanceAs (Decidable ('\n' ∉ t))

theorem OneLine.append {a b : Text} (ha : OneLine a) (hb : OneLine b) : OneLine (a ++ b) :=
  fun h => (List.mem_append.mp h).elim ha hb

/-- What holds no other characters holds no line feed either. -/
theorem OneLine.of_subset {a b : Text} (hb : OneLine b) (h : a ⊆ b) : OneLine a :=
  fun hmem => hb (h hmem)

/-- Dropping a carriage return leaves the front of the line. -/
theorem dropReturn_isPrefix (l : Text) : dropReturn l <+: l := by
  unfold dropReturn
  split
  · exact List.dropLast_prefix l
  · exact List.prefix_refl l

/-- The carriage return of a line ending is white space behind the line. -/
theorem trim_dropReturn (l : Text) : trim (dropReturn l) = trim l := by
  unfold dropReturn
  split
  · next hlast =>
    obtain ⟨front, rfl⟩ := List.getLast?_eq_some_iff.mp hlast
    rw [List.dropLast_concat, trim_append_blank (by decide)]
  · rfl

/-- Lines that are written are read back, but for the carriage returns at their ends. -/
theorem map_trim_lines_unlines {ls : List Text} (h : ∀ l ∈ ls, '\n' ∉ l) :
    (lines (unlines ls)).map trim = ls.map trim := by
  induction ls with
  | nil => rw [unlines_nil, lines_nil]
  | cons l ls ih =>
    obtain ⟨hl, hls⟩ := List.forall_mem_cons.mp h
    rw [unlines_cons, lines_append_newline hl, List.map_cons, trim_dropReturn, ih hls,
      List.map_cons]

/-- Lines that are written in front of a text are its first pieces between line feeds. -/
theorem splitOn_unlines_append {ls : List Text} (h : ∀ l ∈ ls, OneLine l) (t : Text) :
    (unlines ls ++ t).splitOn '\n' = ls ++ t.splitOn '\n' := by
  induction ls with
  | nil => rfl
  | cons l ls ih =>
    obtain ⟨hl, hls⟩ := List.forall_mem_cons.mp h
    rw [unlines_cons, List.append_assoc, List.cons_append,
      List.splitOn_append_cons_self_of_not_mem hl, ih hls, List.cons_append]

/-- A line holds no line feed and is a part of the text. -/
theorem of_mem_lines {l t : Text} (h : l ∈ lines t) : '\n' ∉ l ∧ l <:+: t := by
  have hpiece : ∃ p ∈ t.splitOn '\n', l <+: p := by
    rcases List.mem_append.mp h with h | h
    · obtain ⟨p, hp, rfl⟩ := List.mem_map.mp h
      exact ⟨p, (List.dropLast_prefix _).subset hp, dropReturn_isPrefix p⟩
    · obtain ⟨hl, -⟩ := List.mem_filter.mp h
      exact ⟨l, List.mem_of_getLast? (by simpa using hl), List.prefix_refl l⟩
  obtain ⟨p, hp, hl⟩ := hpiece
  exact ⟨fun hmem => not_mem_of_mem_splitOn hp (hl.subset hmem),
    hl.isInfix.trans (isInfix_of_mem_splitOnP hp)⟩

/-- The text is empty or ends in a line feed. -/
def WholeLines (t : Text) : Prop := ∀ c ∈ t.getLast?, c = '\n'

instance (t : Text) : Decidable (WholeLines t) := Option.decidableForallMem t.getLast?

theorem WholeLines.append {a b : Text} (ha : WholeLines a) (hb : WholeLines b) :
    WholeLines (a ++ b) := by
  intro c hc
  rw [List.getLast?_append, Option.mem_def, Option.or_eq_some_iff] at hc
  rcases hc with hc | ⟨-, hc⟩
  · exact hb c hc
  · exact ha c hc

/-- Behind whole lines a text is cut into lines as it is on its own. -/
theorem lines_append {a : Text} (ha : WholeLines a) (b : Text) :
    lines (a ++ b) = lines a ++ lines b := by
  induction hlength : a.length using Nat.strongRecOn generalizing a with
  | ind n ih =>
    cases hlast : a.getLast? with
    | none =>
      rw [List.getLast?_eq_none_iff.mp hlast]
      simp
    | some c =>
      have hmem : '\n' ∈ a := ha c hlast ▸ List.mem_of_getLast? hlast
      obtain ⟨l, rest, rfl, hl⟩ := List.eq_append_cons_of_mem hmem
      have hrest : WholeLines rest := fun d hd => ha d (by
        rw [Option.mem_def] at hd ⊢
        rw [List.getLast?_append, List.getLast?_cons, hd]
        rfl)
      have hshort : rest.length < n := by
        rw [← hlength, List.length_append, List.length_cons]
        omega
      rw [List.append_assoc, List.cons_append, lines_append_newline hl, lines_append_newline hl,
        ih _ hshort hrest rfl, List.cons_append]

end HeaderCards.Text
