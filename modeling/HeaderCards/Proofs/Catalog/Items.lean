import HeaderCards.Proofs.Catalog.ForeignCode

/-!
# Items of the documentation

The documentation of a function has an item for every argument. What a card says is escaped, so
no line of it begins with the mark of an item, and the further lines of an item are indented.
So in front of the remarks, which keep their layout, the lines that open items are the first
lines of the arguments' items.
-/

namespace HeaderCards

open Text (OneLine)

/-- An escaped text begins with no character of markup but the backslash. -/
theorem Markdown.eq_backslash_of_mem_head?_escape {t : Text} {c : Char}
    (h : c ∈ (escape t).head?) (hc : isMarkup c = true) : c = '\\' := by
  cases t with
  | nil => simp at h
  | cons d t =>
    rw [escape_cons, escapeChar] at h
    split at h
    · exact (Option.some.inj h).symm
    · next hd =>
      cases Option.some.inj h
      exact absurd hc hd

/-- The line of documentation opens an item. -/
def opensItem (l : Text) : Bool := Text.startsWith l "* `"

/-- No escaped text opens an item. -/
@[simp] theorem opensItem_escape (t : Text) : opensItem (Markdown.escape t) = false := by
  cases hopens : opensItem (Markdown.escape t) with
  | false => rfl
  | true =>
    obtain ⟨rest, hrest⟩ := Text.startsWith_iff.mp hopens
    have hstar : '*' ∈ (Markdown.escape t).head? := hrest ▸ rfl
    exact absurd (Markdown.eq_backslash_of_mem_head?_escape hstar (by decide)) (by decide)

/-- No further line of an item opens one. -/
@[simp] theorem opensItem_itemLine (l : Text) : opensItem (itemLine l) = false := by
  rw [itemLine]
  split <;> rfl

@[simp] theorem opensItem_itemHead_append (name rest : Text) :
    opensItem (itemHead name ++ rest) = true :=
  Text.startsWith_iff.mpr ⟨name ++ "` - " ++ rest, by simp [itemHead]⟩

/-- The marks of a comment and of an item together. -/
theorem itemMarks_eq : ("    /// * `" : Text) = ("    /// " : Text) ++ ("* `" : Text) := by
  decide +kernel

/-- A comment line opens an item when its line of documentation does. -/
theorem Binding.startsWith_commentLine (l : Text) :
    Text.startsWith (commentLine l) "    /// * `" = opensItem l := by
  rw [commentLine]
  split
  · next hl =>
    rw [hl]
    decide +kernel
  · rw [Bool.eq_iff_iff, opensItem, Text.startsWith_iff, Text.startsWith_iff, itemMarks_eq,
      List.prefix_append_right_inj]

/-- The front of the comment line that introduces an argument of that name. -/
def itemFront (name : Text) : Text := "    /// * `" ++ name ++ "` - "

/-- The comment line introduces the argument. Its name is followed by the escaped direction when
there is a note, and then only, and by nothing but the fallback otherwise. -/
structure Introduces (f : Family) (q : Pairing) (line : Text) : Prop where
  named : itemFront q.argument.name <+: line
  directed : ∀ n ∈ q.note?, itemFront q.argument.name ++ Markdown.escape n.direction.tag <+: line
  noted : ∀ d : Direction, itemFront q.argument.name ++ Markdown.escape d.tag <+: line →
    q.note?.isSome = true
  unnoted : q.note? = none → line = itemFront q.argument.name ++ f.fallback q.argument.name

theorem itemFront_eq (name : Text) : itemFront name = ("    /// " : Text) ++ itemHead name :=
  calc itemFront name
    _ = ("    /// " : Text) ++ ("* `" : Text) ++ name ++ ("` - " : Text) :=
      congrArg (· ++ name ++ ("` - " : Text)) itemMarks_eq
    _ = ("    /// " : Text) ++ itemHead name := by simp [itemHead]

theorem Binding.commentLine_itemHead_append (name rest : Text) :
    commentLine (itemHead name ++ rest) = itemFront name ++ rest := by
  have hne : itemHead name ++ rest ≠ [] := by simp [itemHead]
  rw [commentLine, if_neg hne, itemFront_eq, List.append_assoc]

/-- No fallback reads like a direction. -/
theorem Family.not_isPrefix_fallback (f : Family) (argument : Text) (d : Direction) :
    ¬ Markdown.escape d.tag <+: f.fallback argument := by
  rw [fallback]
  split <;> cases d <;> decide +kernel

/-- One line of the item of an argument with a note opens an item, the one that has the name and
the direction. -/
theorem Note.filter_item (n : Note) (name : Text) :
    ∃ rest, (n.item name).filter opensItem =
      [itemHead name ++ (Markdown.escape n.direction.tag ++ rest)] := by
  have hfurther (ls : List Text) : (ls.map itemLine).filter opensItem = [] := by
    simp [List.filter_eq_nil_iff]
  rw [item]
  cases n.lines with
  | nil => exact ⟨[], by simp⟩
  | cons first rest =>
    dsimp only
    split
    · exact ⟨[], by simp [hfurther]⟩
    · exact ⟨" " ++ Markdown.escape (withPeriod first), by simp [hfurther]⟩

/-- One line of the item of an argument opens an item, and its comment line introduces the
argument. -/
theorem Pairing.filter_item (f : Family) (q : Pairing) :
    ∃ l, (q.item f).filter opensItem = [l] ∧ Introduces f q (Binding.commentLine l) := by
  rw [item]
  cases hnote : q.note? with
  | some n =>
    obtain ⟨rest, hrest⟩ := n.filter_item q.argument.name
    refine ⟨_, hrest, ?_⟩
    rw [Binding.commentLine_itemHead_append]
    exact {
      named := List.prefix_append _ _
      directed := fun m hm => by
        cases Option.some.inj (hnote.symm.trans hm)
        rw [← List.append_assoc]
        exact List.prefix_append _ _
      noted := fun _ _ => by rw [hnote]; rfl
      unnoted := fun h => by simp [hnote] at h }
  | none =>
    refine ⟨itemHead q.argument.name ++ f.fallback q.argument.name, by simp, ?_⟩
    rw [Binding.commentLine_itemHead_append]
    exact {
      named := List.prefix_append _ _
      directed := fun m hm => by simp [hnote] at hm
      noted := fun d hd => absurd ((List.prefix_append_right_inj _).mp hd)
        (f.not_isPrefix_fallback q.argument.name d)
      unnoted := fun _ => rfl }

theorem Description.filter_summary (d : Description) : d.summary.filter opensItem = [] := by
  rw [summary]
  split
  · decide +kernel
  · simp [List.filter_eq_nil_iff]

theorem Description.filter_returns (d : Description) : d.returns.filter opensItem = [] := by
  have hheading : ([[], "# Returns", []] : List Text).filter opensItem = [] := by decide +kernel
  rw [returns]
  split
  · rfl
  · split
    · rfl
    · rw [List.filter_append, hheading, List.nil_append, List.filter_eq_nil_iff]
      exact List.forall_mem_map.mpr fun l _ => by simp

namespace Binding

/-- In front of the remarks only the items of the arguments open items. -/
theorem filter_documentationHead (b : Binding) :
    b.documentationHead.filter opensItem =
      b.arguments.flatMap fun a => (a.toPairing.item b.family).filter opensItem := by
  have hheading : ([[], "# Arguments", []] : List Text).filter opensItem = [] := by
    decide +kernel
  simp only [documentationHead, List.filter_append, Description.filter_summary, hheading,
    Description.filter_returns, List.filter_flatMap, List.nil_append, List.append_nil]

/-- The comment lines in front of the remarks that open items introduce the arguments in order. -/
theorem forall₂_introduces (b : Binding) :
    List.Forall₂ (fun a l => Introduces b.family a.toPairing l) b.arguments
      ((b.documentationHead.map commentLine).filter (Text.startsWith · "    /// * `")) := by
  have hopens : (Text.startsWith · "    /// * `") ∘ commentLine = opensItem :=
    funext startsWith_commentLine
  rw [List.filter_map, hopens, filter_documentationHead]
  induction b.arguments with
  | nil => exact List.Forall₂.nil
  | cons a as ih =>
    obtain ⟨l, hl, hintroduces⟩ := a.toPairing.filter_item b.family
    rw [List.flatMap_cons, hl, List.singleton_append, List.map_cons]
    exact List.Forall₂.cons hintroduces ih

end Binding

/-- The comment lines of the section on remarks: none without remarks, and else its heading and
the remarks inside a fence. -/
structure Description.IsRemarks (d : Description) (ls : List Text) : Prop where
  absent : d.remarks = [] → ls = []
  present : d.remarks ≠ [] →
    ls = ([("    ///" : Text), "    /// # Remarks", "    ///", "    /// ```text"] : List Text) ++
      (Block.dedent d.remarks).map Binding.commentLine ++ [("    /// ```" : Text)]

theorem Description.isRemarks_map (d : Description) :
    d.IsRemarks (d.remarksSection.map Binding.commentLine) where
  absent h := by simp [remarksSection, h]
  present h := by
    have hopening : ([[], "# Remarks", [], "```text"] : List Text).map Binding.commentLine =
        [("    ///" : Text), "    /// # Remarks", "    ///", "    /// ```text"] := by
      decide +kernel
    have hclosing : Binding.commentLine "```" = ("    /// ```" : Text) := by decide +kernel
    rw [remarksSection, if_neg (by simpa using h), List.map_append, List.map_append, hopening,
      List.map_singleton, hclosing]

/-- No text of a card passes for the item of an argument. The lines written for a function are
those of its comment and of its declaration, provided that no name of an argument and no text of
its description or of a note holds a line feed. Of the lines of the comment that stand in front
of the section on remarks, the ones that open an item are as many as the arguments and introduce
them in order. No binding of a collected catalog holds a line feed. -/
theorem Binding.items_of_arguments :
    (∀ b : Binding, b.Unbroken →
      ∃ front remarks : List Text,
        (Text.unlines b.lines).splitOn '\n' =
          front ++ remarks ++ (Text.unlines b.declaration).splitOn '\n' ∧
        (∀ l ∈ front ++ remarks, ("    ///" : Text) <+: l) ∧
        b.description.IsRemarks remarks ∧
        List.Forall₂ (fun a l => Introduces b.family a.toPairing l) b.arguments
          (front.filter (Text.startsWith · "    /// * `"))) ∧
    ∀ (q : Request) (read : FileReader) (c : Catalog) (bs : List Binding),
      q.collect read = .ok c → c.bindings = .ok bs → ∀ b ∈ bs, b.Unbroken := by
  refine ⟨fun b h => ?_, fun q read c bs hc hbs => ?_⟩
  · refine ⟨b.documentationHead.map commentLine, b.description.remarksSection.map commentLine,
      ?_, ?_, b.description.isRemarks_map, b.forall₂_introduces⟩
    · have hlines : ∀ l ∈ b.documentation.map commentLine, OneLine l :=
        List.forall_mem_map.mpr fun l hl => oneLine_commentLine (h.oneLine_documentation l hl)
      rw [lines, Text.unlines_append, Text.splitOn_unlines_append hlines, documentation,
        List.map_append]
    · rw [← List.map_append]
      exact List.forall_mem_map.mpr fun l _ => isPrefix_commentLine l
  · exact Catalog.unbroken_of_mem_bindings (fun e he => Request.unbroken_of_mem_collect hc he) hbs

/-- A note with a further line that reads like the item of another argument. -/
def forgingNote : Note := ⟨"N", .input, ["The size", "* `m` - [out] Forged.".toList]⟩

/-- A function whose card has items of arguments in its purpose, in a note and in its remarks,
where they stand behind a heading of their own. -/
def forgedBinding : Binding where
  family := .lapack
  prototype := ⟨"LAPACKE_a", "lapack_int", [⟨"lapack_int", "n"⟩, ⟨"lapack_int*", "m"⟩]⟩
  description := {
    purpose := ["* `n` - [out] Forged.".toList, "# Remarks".toList, "* `m` - Forged.".toList]
    notes := [forgingNote]
    remarks := ["* `m` - Forged.".toList] }
  arguments := [⟨⟨⟨"lapack_int", "n"⟩, some forgingNote⟩, .scalar .int32⟩,
    ⟨⟨⟨"lapack_int*", "m"⟩, none⟩, .pointer .int32⟩]
  result := .info

/-- Of the items on the card only the one in the remarks is left as it was, and the items in front
of them are those of the two arguments. -/
theorem Binding.items_of_forgedBinding :
    forgedBinding.prototype.bind .lapack forgedBinding.description = .ok forgedBinding ∧
    forgedBinding.Unbroken ∧
    ∃ front remarks : List Text,
      (Text.unlines forgedBinding.lines).splitOn '\n' =
        front ++ remarks ++ (Text.unlines forgedBinding.declaration).splitOn '\n' ∧
      ("    /// * `m` - Forged." : Text) ∈ remarks ∧
      ∃ first, front.filter (Text.startsWith · "    /// * `") =
        [first, ("    /// * `m` - No description available." : Text)] ∧
      ("    /// * `n` - \\[in\\]" : Text) <+: first := by
  have hbind : forgedBinding.prototype.bind .lapack forgedBinding.description =
      .ok forgedBinding := by
    decide +kernel
  have hunbroken : forgedBinding.Unbroken := by decide +kernel
  obtain ⟨front, remarks, hlines, -, hremarks, hitems⟩ := items_of_arguments.1 _ hunbroken
  obtain ⟨first, rest, hfirst, hrest, hfilter⟩ := List.forall₂_cons_left_iff.mp hitems
  obtain ⟨second, rest', hsecond, hnil, rfl⟩ := List.forall₂_cons_left_iff.mp hrest
  rw [List.forall₂_nil_left_iff.mp hnil] at hfilter
  refine ⟨hbind, hunbroken, front, remarks, hlines, ?_, first, ?_, ?_⟩
  · rw [hremarks.present (by decide +kernel)]
    decide +kernel
  · rw [hfilter, hsecond.unnoted rfl]
    have hfallback : itemFront "m" ++ Family.lapack.fallback "m" =
      ("    /// * `m` - No description available." : Text) := by decide +kernel
    exact congrArg ([first, ·]) hfallback
  · have hdirected := hfirst.directed forgingNote rfl
    have hfront : itemFront "n" ++ Markdown.escape forgingNote.direction.tag =
      ("    /// * `n` - \\[in\\]" : Text) := by decide +kernel
    exact hfront ▸ hdirected

end HeaderCards
