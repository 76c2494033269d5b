import HeaderCards.Proofs.Card.Column
import HeaderCards.Proofs.Card.Reading

/-!
# One reader for both dialects

The reader asks its dialect for markers only. Two dialects that find the same markers on every
stripped line lead it through the same states, to the same failure or to the same end. Lines in
the comment column are stripped to themselves in either dialect, so that such lines, put into
both columns, make two cards that are read alike, but for the purpose that one dialect requires.
-/

namespace HeaderCards

/-- The dialects find the same markers on the stripped line. -/
structure Dialect.Agree (d e : Dialect) (l : Text) : Prop where
  heading? : d.heading? l = e.heading? l
  opens : d.opens l = e.opens l
  closes : d.closes l = e.closes l
  isTag : d.isTag l = e.isTag l

theorem Dialect.agree_iff {d e : Dialect} {l : Text} :
    d.Agree e l ↔ d.heading? l = e.heading? l ∧ d.opens l = e.opens l ∧
      d.closes l = e.closes l ∧ d.isTag l = e.isTag l :=
  ⟨fun h => ⟨h.heading?, h.opens, h.closes, h.isTag⟩, fun h => ⟨h.1, h.2.1, h.2.2.1, h.2.2.2⟩⟩

instance (d e : Dialect) (l : Text) : Decidable (d.Agree e l) :=
  decidable_of_iff _ Dialect.agree_iff.symm

variable {d e : Dialect}

namespace Reader

/-- Dialects that agree on a line make the reader take the same step. -/
theorem step_agree {l : Text} (h : d.Agree e l) (r : Reader) : step d r l = step e r l := by
  have hinside : stepInside d r l = stepInside e r l := by
    cases hm : r.mode <;> simp only [stepInside, hm, h.opens, h.closes, h.isTag]
  rw [step, step, h.heading?, hinside]

/-- Dialects that agree on all lines lead the reader to the same state or the same failure. -/
theorem foldlM_step_agree {ls : List Text} (h : ∀ l ∈ ls, d.Agree e l) (r : Reader) :
    ls.foldlM (step d) r = ls.foldlM (step e) r := by
  induction ls generalizing r with
  | nil => rfl
  | cons l ls ih =>
    rw [List.foldlM_cons, List.foldlM_cons, step_agree (h l (List.mem_cons_self ..))]
    congr 1
    funext s
    exact ih (fun k hk => h k (List.mem_cons_of_mem l hk)) s

/-- Without a requirement the reader ends with what it has collected. -/
theorem finish_of_not_requiresPurpose (h : d.requiresPurpose = false) (r : Reader) :
    finish d r = .ok ⟨Block.squeeze r.purpose.reverse, r.notes.reverse,
      Block.squeeze r.remarks.reverse⟩ := by
  simp [finish, h]

/-- Where a purpose is required the reader refuses to end without one. -/
theorem finish_of_requiresPurpose (h : d.requiresPurpose = true) (r : Reader) :
    finish d r = if Block.squeeze r.purpose.reverse = [] then .error .missingPurpose
      else .ok ⟨Block.squeeze r.purpose.reverse, r.notes.reverse,
        Block.squeeze r.remarks.reverse⟩ := by
  simp [finish, h]

end Reader

/-- A card in the comment column is read line by line, from its first line to its last. -/
theorem Card.readAs_of_column {t : Text} {ls : List Text} (h : Text.lines t = ls.map d.column) :
    readAs d t = ls.foldlM (Reader.step d) {} >>= Reader.finish d := by
  rw [readAs, h, Dialect.cardLines_column, Reader.foldlM_stepLine, Dialect.stripAll_column]
  simp only [bind_assoc, ok_bind]

/-- Lines on which the dialects agree say the same in the comment column of Fortran sources and
in wrapped comments: both cards are refused for the same reason, or both say the same, except
that a card in wrapped comments is refused when there is no purpose. -/
theorem Card.readAs_f2c_of_readAs_fortran (ls : List Text)
    (hlines : ∀ l ∈ ls, '\n' ∉ l ∧ '\r' ∉ l) (hagree : ∀ l ∈ ls, Dialect.fortran.Agree .f2c l) :
    (∀ d : Dialect, Text.lines (Text.unlines (ls.map d.column)) = ls.map d.column) ∧
    ∀ F C : Text, Text.lines F = ls.map Dialect.fortran.column →
      Text.lines C = ls.map Dialect.f2c.column →
        (∀ e, readAs .fortran F = .error e → readAs .f2c C = .error e) ∧
        ∀ D, readAs .fortran F = .ok D →
          readAs .f2c C = if D.purpose = [] then .error .missingPurpose else .ok D := by
  constructor
  · intro d
    exact Dialect.lines_unlines_column fun l hl =>
      Dialect.fits_of_not_mem (hlines l hl).1 (hlines l hl).2
  intro F C hF hC
  rw [readAs_of_column hF, readAs_of_column hC, ← Reader.foldlM_step_agree hagree]
  cases ls.foldlM (Reader.step .fortran) {} with
  | error e =>
    refine ⟨fun e' he => he, fun D hD => ?_⟩
    contradiction
  | ok r =>
    rw [ok_bind, ok_bind, Reader.finish_of_not_requiresPurpose rfl,
      Reader.finish_of_requiresPurpose rfl]
    refine ⟨fun e he => by contradiction, fun D hD => ?_⟩
    cases hD
    rfl

/-- A card with a purpose that has no text and a note whose block is left open. -/
def openLines : List Text :=
  ["\\par Purpose:".toList, "\\verbatim".toList, "Solves A*x = b.".toList, "Arguments:".toList,
    "\\param[in] N".toList, "\\verbatim".toList, "  The order.".toList]

/-- The same card with a tag behind it that has no direction. -/
def badTagLines : List Text := openLines ++ ["Arguments:".toList, " \\param[up] X".toList]

/-- The open card says nothing in one dialect and is refused in the other; behind a bad tag both
are refused for its words. -/
theorem Card.readAs_f2c_of_open :
    ((∀ l ∈ badTagLines, '\n' ∉ l ∧ '\r' ∉ l) ∧ ∀ l ∈ badTagLines, Dialect.fortran.Agree .f2c l) ∧
    readAs .f2c (Text.unlines (openLines.map Dialect.f2c.column)) = .error .missingPurpose ∧
    readAs .f2c (Text.unlines (badTagLines.map Dialect.f2c.column)) =
      .error (.unknownDirection "up" "X") := by
  have hlines : ∀ l ∈ badTagLines, '\n' ∉ l ∧ '\r' ∉ l := by decide +kernel
  have hagree : ∀ l ∈ badTagLines, Dialect.fortran.Agree .f2c l := by decide +kernel
  have hsub : openLines ⊆ badTagLines := List.subset_append_left _ _
  obtain ⟨hopen, hempty⟩ := readAs_f2c_of_readAs_fortran openLines (fun l hl => hlines l (hsub hl))
    fun l hl => hagree l (hsub hl)
  obtain ⟨hbad, hrefused⟩ := readAs_f2c_of_readAs_fortran badTagLines hlines hagree
  refine ⟨⟨hlines, hagree⟩, ?_, ?_⟩
  · have hread : readAs .fortran (Text.unlines (openLines.map Dialect.fortran.column)) = .ok ∅ := by
      rw [readAs_of_column (hopen .fortran)]
      decide +kernel
    exact (hempty _ _ (hopen .fortran) (hopen .f2c)).2 ∅ hread
  · have hread : readAs .fortran (Text.unlines (badTagLines.map Dialect.fortran.column)) =
        .error (.unknownDirection "up" "X") := by
      rw [readAs_of_column (hbad .fortran)]
      decide +kernel
    exact (hrefused _ _ (hbad .fortran) (hbad .f2c)).1 _ hread

end HeaderCards
