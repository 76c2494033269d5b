import HeaderCards.Proofs.Card.Reading
import HeaderCards.Proofs.Card.Span
import HeaderCards.Proofs.Text.Lines

/-!
# Cards inside code

A card in wrapped comments is found inside the code of a source: it runs from the first
wrapped line to the last, and no line outside of it is looked at. So the code around a card
can be exchanged, and all that is seen of the code is how many of its lines stand in front,
since a line that cannot be decoded is reported by its number in the source.
-/

namespace HeaderCards

/-- The error of the same card when more lines stand in front of it. -/
def CardError.moved (k : Nat) : CardError → CardError
  | undecodableLine number line => undecodableLine (number + k) line
  | e => e

namespace Dialect

/-- A text is in the wrapped dialect when one of its lines is the wrapped purpose heading. -/
theorem ofText_eq_f2c_iff {t : Text} :
    ofText t = f2c ↔ ∃ l ∈ Text.lines t, Text.trimEnd l = "/* > \\par Purpose: */" := by
  have hany : (Text.lines t).any (Text.trimEnd · = "/* > \\par Purpose: */") = true ↔
      ∃ l ∈ Text.lines t, Text.trimEnd l = "/* > \\par Purpose: */" := by
    rw [List.any_eq_true]
    exact exists_congr fun l => and_congr_right' decide_eq_true_iff
  rw [ofText, ← hany]
  split
  · next h => exact iff_of_true rfl h
  · next h => exact iff_of_false Dialect.noConfusion h

/-- The wrapped purpose heading is a wrapped line. -/
theorem exists_isWrapped_of_ofText {t : Text} (h : ofText t = f2c) :
    ∃ l ∈ Text.lines t, isWrapped l = true := by
  obtain ⟨l, hl, htrim⟩ := ofText_eq_f2c_iff.mp h
  refine ⟨l, hl, Text.startsWith_iff.mpr ?_⟩
  have hopening : ("/* >" : Text) <+: Text.trimEnd l := htrim ▸ ⟨" \\par Purpose: */", rfl⟩
  exact hopening.trans (Text.trimEnd_isPrefix l)

/-- A text is in the wrapped dialect when a part of its lines is. -/
theorem ofText_of_subset {t u : Text} (h : ofText u = f2c) (hsub : Text.lines u ⊆ Text.lines t) :
    ofText t = f2c := by
  obtain ⟨l, hl, htrim⟩ := ofText_eq_f2c_iff.mp h
  exact ofText_eq_f2c_iff.mpr ⟨l, hsub hl, htrim⟩

end Dialect

variable {d : Dialect}

/-- A line is stripped alike wherever it stands. -/
theorem Dialect.strip_moved (d : Dialect) (number k : Nat) (l : Text) :
    d.strip (number + k) l = (d.strip number l).mapError (CardError.moved k) := by
  cases d with
  | fortran => rfl
  | f2c =>
    rw [strip, strip]
    cases CardLine.decode? l <;> rfl

/-- What is wrong with a tag does not depend on the place of the card. -/
theorem Tag.read_moved (k : Nat) (l : Text) :
    (Tag.read l).mapError (CardError.moved k) = Tag.read l := by
  unfold Tag.read
  split
  · rfl
  · split
    · rfl
    · split <;> rfl

namespace Reader

/-- Reading a stripped line fails alike wherever the card stands. -/
theorem step_moved (k : Nat) (r : Reader) (l : Text) :
    (step d r l).mapError (CardError.moved k) = step d r l := by
  unfold step
  split
  · rfl
  · cases hmode : r.mode with
    | seekingTag =>
      -- only here can the reader fail
      simp only [stepInside, hmode]
      split
      · rw [map_eq_bind, mapError_bind, Tag.read_moved]
        rfl
      · rfl
    | _ =>
      simp only [stepInside, hmode]
      rfl

/-- A line is read alike wherever the card stands, but for the number in its error. -/
theorem stepLine_moved (k : Nat) (r : Reader) (line : Text × Nat) :
    stepLine d r (Prod.map id (· + k) line) = (stepLine d r line).mapError (CardError.moved k) := by
  simp only [stepLine, Prod.map_fst, Prod.map_snd, id, mapError_bind, step_moved,
    Dialect.strip_moved]

/-- Finishing fails alike wherever the card stands. -/
theorem finish_moved (k : Nat) (r : Reader) :
    (finish d r).mapError (CardError.moved k) = finish d r := by
  unfold finish
  simp only
  split <;> rfl

end Reader

/-- A card whose lines are moved says the same, and is refused for the same reason. -/
theorem Card.readAs_moved {t u : Text} {k : Nat} (h : d.cardLines (Text.lines t) =
      (d.cardLines (Text.lines u)).map (Prod.map id (· + k))) :
    readAs d t = (readAs d u).mapError (CardError.moved k) := by
  simp only [readAs, h, List.foldlM_map, Reader.stepLine_moved, foldlM_mapError, mapError_bind,
    Reader.finish_moved]

/-- Lines that cannot all be stripped hold a first one that cannot be decoded. It is quoted
with its number, and all lines in front of it decode. -/
theorem Dialect.exists_of_stripAll_eq_some {ls : List Text} {number : Nat} {e : CardError}
    (h : (f2c.stripAll (ls.zipIdx number)).2 = some e) :
    ∃ good line rest, ls = good ++ line :: rest ∧ e = .undecodableLine (number + good.length) line ∧
      (∀ k ∈ good, (CardLine.decode? k).isSome = true) ∧ CardLine.decode? line = none := by
  induction ls generalizing number with
  | nil => contradiction
  | cons l ls ih =>
    rw [List.zipIdx_cons, stripAll, strip] at h
    cases hl : CardLine.decode? l with
    | none =>
      rw [hl] at h
      cases h
      exact ⟨[], l, ls, rfl, rfl, by simp, hl⟩
    | some c =>
      rw [hl] at h
      obtain ⟨good, line, rest, rfl, rfl, hgood, hline⟩ := ih h
      refine ⟨l :: good, line, rest, rfl, ?_, List.forall_mem_cons.mpr ⟨by simp [hl], hgood⟩, hline⟩
      rw [List.length_cons, Nat.add_assoc, Nat.add_comm 1]

/-- Lines of Fortran sources can all be stripped. -/
theorem Dialect.stripAll_fortran (ls : List (Text × Nat)) : (fortran.stripAll ls).2 = none := by
  induction ls with
  | nil => rfl
  | cons line ls ih => exact ih

/-- No stripped line is reported as undecodable. -/
theorem Reader.foldlM_step_ne_undecodable (r : Reader) (ls : List Text) (number : Nat)
    (line : Text) : ls.foldlM (step d) r ≠ .error (.undecodableLine number line) := by
  intro h
  -- the number in such an error would not survive a move of the card by one line
  have hmoved := foldlM_mapError (CardError.moved 1) (step d) r ls
  simp only [step_moved, h, mapError_error, CardError.moved, Except.error.injEq,
    CardError.undecodableLine.injEq] at hmoved
  omega

/-- A line is reported as undecodable when it is the first that cannot be stripped. -/
theorem Card.stripAll_of_undecodable {t line : Text} {number : Nat}
    (h : readAs d t = .error (.undecodableLine number line)) :
    (d.stripAll (d.cardLines (Text.lines t))).2 = some (.undecodableLine number line) := by
  rw [readAs, Reader.foldlM_stepLine] at h
  cases hread : (d.stripAll (d.cardLines (Text.lines t))).1.foldlM (Reader.step d) {} with
  | error e =>
    rw [hread] at h
    cases h
    exact absurd hread (Reader.foldlM_step_ne_undecodable _ _ number line)
  | ok r =>
    cases hstrip : (d.stripAll (d.cardLines (Text.lines t))).2 with
    | some e =>
      rw [hread, ok_bind, hstrip] at h
      cases h
      rfl
    | none =>
      rw [hread, ok_bind, hstrip, ok_bind] at h
      have hmoved := Reader.finish_moved (d := d) 1 r
      rw [h] at hmoved
      simp [CardError.moved] at hmoved

namespace Card

/-- A card is read through the code around it. -/
theorem read_surrounded {t u : Text} {pre post : List Text} (hu : Dialect.ofText u = .f2c)
    (hcode : ∀ l ∈ pre ++ post, Dialect.isWrapped l = false)
    (hlines : Text.lines t = pre ++ (Text.lines u ++ post)) :
    read t = (read u).mapError (CardError.moved pre.length) := by
  have ht : Dialect.ofText t = .f2c := by
    apply Dialect.ofText_of_subset hu
    rw [hlines]
    exact List.subset_append_of_subset_right _ (List.subset_append_left _ _)
  rw [read, ht, read, hu]
  apply readAs_moved
  rw [hlines, Dialect.cardLines_surrounded (Dialect.exists_isWrapped_of_ofText hu) hcode]

/-- An undecodable line is the first one of its card that does not decode, and is reported
with its number in the source. -/
theorem exists_of_read_eq_undecodable {t line : Text} {number : Nat}
    (h : read t = .error (.undecodableLine number line)) :
    ∃ before inside after, Text.lines t = before ++ (inside ++ line :: after) ∧
      number = (before ++ inside).length + 1 ∧
      (∀ l ∈ before, Dialect.isWrapped l = false) ∧
      (∃ l ∈ (inside ++ [line]).head?, Dialect.isWrapped l = true) ∧
      (∃ l ∈ line :: after, Dialect.isWrapped l = true) ∧
      (∀ l ∈ inside, (CardLine.decode? l).isSome = true) ∧ CardLine.decode? line = none := by
  have hstrip := stripAll_of_undecodable h
  cases hdialect : Dialect.ofText t with
  | fortran =>
    rw [hdialect, Dialect.stripAll_fortran] at hstrip
    contradiction
  | f2c =>
    obtain ⟨before, span, behind, hlines, hspan, hbefore, hbehind⟩ :=
      Dialect.exists_span (Dialect.exists_isWrapped_of_ofText hdialect)
    rw [hdialect, hlines, Dialect.cardLines_of_span hspan hbefore hbehind] at hstrip
    obtain ⟨inside, line', rest, rfl, he, hinside, hline⟩ :=
      Dialect.exists_of_stripAll_eq_some hstrip
    cases he
    refine ⟨before, inside, rest ++ behind, by simpa using hlines, ?_, hbefore, ?_, ?_, hinside,
      hline⟩
    · rw [List.length_append]
      omega
    · obtain ⟨l, hl, hwrapped⟩ := hspan.first
      refine ⟨l, ?_, hwrapped⟩
      cases inside with
      | nil => exact hl
      | cons k ks => exact hl
    · obtain ⟨l, hl, hwrapped⟩ := hspan.last
      refine ⟨l, ?_, hwrapped⟩
      rw [List.getLast?_append_cons] at hl
      exact List.mem_append_left behind (List.mem_of_getLast? hl)

/-- Code around a wrapped card is not seen: the card says the same without it, or is refused
for the same reason, in which a line that cannot be decoded is numbered by its place in the
source. This holds however the lines are ended, and so for lines that are written as text. The
line of such an error is the first one that does not decode among the lines from the first
wrapped line to the last. -/
theorem read_inside_code :
    (∀ (t u : Text) (pre post : List Text), Dialect.ofText u = .f2c →
      (∀ l ∈ pre ++ post, Dialect.isWrapped l = false) →
      Text.lines t = pre ++ (Text.lines u ++ post) →
      read t = (read u).mapError (CardError.moved pre.length)) ∧
    (∀ pre card post : List Text, (∀ l ∈ pre ++ (card ++ post), Text.IsLine l) →
      Dialect.ofText (Text.unlines card) = .f2c →
      (∀ l ∈ pre ++ post, Dialect.isWrapped l = false) →
      read (Text.unlines (pre ++ (card ++ post))) =
        (read (Text.unlines card)).mapError (CardError.moved pre.length)) ∧
    ∀ t number line, read t = .error (.undecodableLine number line) →
      ∃ before inside after, Text.lines t = before ++ (inside ++ line :: after) ∧
        number = (before ++ inside).length + 1 ∧
        (∀ l ∈ before, Dialect.isWrapped l = false) ∧
        (∃ l ∈ (inside ++ [line]).head?, Dialect.isWrapped l = true) ∧
        (∃ l ∈ line :: after, Dialect.isWrapped l = true) ∧
        (∀ l ∈ inside, (CardLine.decode? l).isSome = true) ∧ CardLine.decode? line = none := by
  refine ⟨fun t u pre post => read_surrounded, fun pre card post hall hcard hcode => ?_,
    fun t number line => exists_of_read_eq_undecodable⟩
  have hown : ∀ l ∈ card, Text.IsLine l := fun l hl =>
    hall l (List.mem_append_right _ (List.mem_append_left _ hl))
  apply read_surrounded hcard hcode
  rw [Text.lines_unlines hall, Text.lines_unlines hown]

/-- A card with a line of code that is no comment. -/
def brokenCard : List Text := ["/* > \\par Purpose: */", "integer n;", "/* > */"]

/-- The broken card behind one line of code and in front of another. -/
def brokenSource : Text :=
  Text.unlines ((["int f();"] : List Text) ++ (brokenCard ++ (["return 0;"] : List Text)))

/-- In a source the broken card is refused for the third line, which is the first one that
does not decode there, and it is refused for the same line when the lines are ended in another
way. -/
theorem read_brokenSource :
    read brokenSource = .error (.undecodableLine 3 "integer n;") ∧
    read "int f();\r\n/* > \\par Purpose: */\r\ninteger n;\r\n/* > */" = read brokenSource ∧
    ∃ before inside after : List Text,
      Text.lines brokenSource = before ++ (inside ++ "integer n;".toList :: after) ∧
        3 = (before ++ inside).length + 1 := by
  obtain ⟨htext, hwritten, hplace⟩ := read_inside_code
  have hcard : Dialect.ofText (Text.unlines brokenCard) = .f2c := by decide +kernel
  have hown : read (Text.unlines brokenCard) = .error (.undecodableLine 2 "integer n;") := by
    decide +kernel
  have hread : read brokenSource = .error (.undecodableLine 3 "integer n;") := by
    rw [brokenSource, hwritten _ brokenCard _ (by decide +kernel) hcard (by decide +kernel), hown]
    rfl
  obtain ⟨before, inside, after, hlines, hnumber, -⟩ := hplace _ _ _ hread
  refine ⟨hread, ?_, before, inside, after, hlines, hnumber⟩
  rw [htext _ (Text.unlines brokenCard) ["int f();"] [] hcard (by decide +kernel)
    (by decide +kernel), hown, hread]
  rfl

end Card

end HeaderCards
