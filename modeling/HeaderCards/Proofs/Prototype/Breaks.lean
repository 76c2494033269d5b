import HeaderCards.Proofs.Prototype.Printed

/-!
# Breaks behind commas

White space behind a comma of the argument list belongs to no argument. A declaration that is
read is read alike when this white space is left out, provided that its name and its first word
end before the comma.
-/

namespace HeaderCards.Declaration

/-- White space in front of a list is trimmed away with its first piece. -/
theorem map_trim_splitOn_blank_append {w : Text} (hw : Text.isBlank w = true) (list : Text) :
    ((w ++ list).splitOn ',').map Text.trim = (list.splitOn ',').map Text.trim := by
  induction w with
  | nil => rfl
  | cons c w ih =>
    rw [Text.isBlank_cons, Bool.and_eq_true] at hw
    have hc : (c == ',') = false := by
      rw [beq_eq_false_iff_ne]
      rintro rfl
      exact absurd hw.1 (by decide)
    obtain ⟨q, qs, hq⟩ := List.exists_cons_of_ne_nil (List.splitOn_ne_nil ',' (w ++ list))
    rw [List.cons_append, List.splitOn_cons_eq_if_modifyHead, hc, ← ih hw.2, hq]
    simp [Text.trim, Text.trimStart_cons_of_isSpace hw.1]

/-- Arguments are read from the trimmed pieces of the list. -/
theorem readArguments_congr {list list' : Text}
    (h : (list.splitOn ',').map Text.trim = (list'.splitOn ',').map Text.trim) (function : Text) :
    readArguments function list = readArguments function list' := by
  have hpieces : ∀ t : Text, readArguments function t =
      ((t.splitOn ',').map Text.trim).mapM (readArgument function) := fun t => by
    rw [List.mapM_map]
    rfl
  rw [hpieces, hpieces, h]

/-- White space behind a comma belongs to no argument. -/
theorem readArguments_blank_behind_comma {w : Text} (hw : Text.isBlank w = true)
    (function a b : Text) :
    readArguments function (a ++ ',' :: (w ++ b)) = readArguments function (a ++ ',' :: b) := by
  refine readArguments_congr ?_ function
  rw [List.splitOn_append_cons_self, List.splitOn_append_cons_self, List.map_append,
    List.map_append, map_trim_splitOn_blank_append hw]

/-- Without the white space behind a comma, the text between the parentheses has the same
arguments. -/
theorem parenthesized?_blank_behind_comma {a w b list : Text} (hopen : '(' ∈ a)
    (hw : Text.isBlank w = true) (h : parenthesized? (a ++ ',' :: (w ++ b)) = some list) :
    ∃ list', parenthesized? (a ++ ',' :: b) = some list' ∧
      ∀ function, readArguments function list' = readArguments function list := by
  obtain ⟨front, inside, rfl, hfront⟩ := List.eq_append_cons_of_mem hopen
  rw [List.append_assoc, List.cons_append, parenthesized?_append hfront] at h
  rw [List.append_assoc, List.cons_append, parenthesized?_append hfront]
  by_cases hclose : ')' ∈ b
  · obtain ⟨b, rest, rfl, hrest⟩ := Text.eq_append_cons_of_mem_last hclose
    have hsplit : ∀ v : Text, inside ++ ',' :: (v ++ (b ++ ')' :: rest)) =
        (inside ++ ',' :: (v ++ b)) ++ ')' :: rest := fun v => by simp
    rw [hsplit, Text.beforeLast?_append hrest] at h
    cases h
    refine ⟨inside ++ ',' :: b, ?_, fun f => (readArguments_blank_behind_comma hw f inside b).symm⟩
    have hshort := hsplit []
    rw [List.nil_append, List.nil_append] at hshort
    rw [hshort, Text.beforeLast?_append hrest]
  · -- the list ends before the comma
    have hbehind : ∀ v : Text, Text.isBlank v = true → ')' ∉ ',' :: (v ++ b) := by
      intro v hv
      simp only [List.mem_cons, List.mem_append, not_or]
      exact ⟨by decide, fun hc => absurd (List.all_eq_true.mp hv ')' hc) (by decide), hclose⟩
    have hshort := hbehind [] rfl
    rw [List.nil_append] at hshort
    rw [Text.beforeLast?_append_of_not_mem (hbehind w hw)] at h
    exact ⟨list, by rw [Text.beforeLast?_append_of_not_mem hshort, h], fun _ => rfl⟩

/-- What follows white space does not belong to the first word. -/
theorem returnType_append_of_mem {c : Char} {a : Text} (hc : Text.isSpace c = true) (hmem : c ∈ a)
    (t : Text) : returnType (a ++ t) = returnType a := by
  obtain ⟨front, behind, rfl⟩ := List.append_of_mem hmem
  rw [List.append_assoc, List.cons_append, returnType_append_cons hc, returnType_append_cons hc]

/-- The text of a line with white space behind a comma. -/
theorem textOf_of_comma {a w b : Text} (hfront : ∀ c ∈ (a ++ [',']).head?, Text.isSpace c = false)
    (hw : Text.isBlank w = true) (hends : [';'] <:+ b) :
    textOf [(a ++ [',']) ++ (w ++ b)] = mend a ++ ',' :: (w ++ mend b) := by
  have hfront' : ∀ c ∈ ((a ++ [',']) ++ (w ++ b)).head?, Text.isSpace c = false := by
    rwa [List.head?_append_of_ne_nil _ (by simp)]
  have hends' : [';'] <:+ (a ++ [',']) ++ (w ++ b) :=
    (hends.trans (List.suffix_append w b)).trans (List.suffix_append _ _)
  rw [textOf_singleton hfront' hends', List.append_assoc, List.singleton_append,
    mend_append_cons (by decide), mend_blank_append hw]

/-- A declaration is read alike without white space behind one of its commas, provided that the
text up to this comma has its name and its first word. -/
theorem read_blank_behind_comma {a w b name : Text} {p : Prototype}
    (hfront : ∀ c ∈ a.head?, Text.isSpace c = false) (hcomma : [','] <:+ a)
    (hname : functionName? (mend a) = some name) (hspace : ∃ c ∈ mend a, Text.isSpace c = true)
    (hw : Text.isBlank w = true) (hends : [';'] <:+ b) (hline : Text.OneLine (a ++ (w ++ b)))
    (h : Declaration.read [a ++ (w ++ b)] = .ok p) : Declaration.read [a ++ b] = .ok p := by
  obtain ⟨a, rfl⟩ := hcomma
  have hmend : mend (a ++ [',']) = mend a ++ [','] := mend_append_cons (by decide) a []
  rw [hmend] at hname hspace
  have htext : ∀ v, Text.isBlank v = true →
      textOf [(a ++ [',']) ++ (v ++ b)] = mend a ++ ',' :: (v ++ mend b) :=
    fun v hv => textOf_of_comma hfront hv hends
  have hnewline : ∀ v, Text.isBlank v = true → Text.OneLine ((a ++ [',']) ++ (v ++ b)) →
      '\n' ∉ mend a ++ ',' :: (v ++ mend b) := by
    intro v hv hline
    rw [← htext v hv]
    exact not_mem_textOf (by simpa using hline)
  have hline' : Text.OneLine ((a ++ [',']) ++ ([] ++ b)) := hline.of_subset
    (List.append_subset.mpr ⟨List.subset_append_left _ _,
      List.Subset.trans (List.subset_append_right w b) (List.subset_append_right _ _)⟩)
  have hopen : '(' ∈ mend a := by
    have hmem := mem_of_functionName? hname
    simpa using hmem
  have hfunction : ∀ t : Text, functionName? (mend a ++ ',' :: t) = some name := fun t => by
    have happend := functionName?_append hname t
    rwa [List.append_assoc, List.singleton_append] at happend
  have hreturn : ∀ t : Text, returnType (mend a ++ ',' :: t) = returnType (mend a ++ [',']) := by
    obtain ⟨c, hmem, hc⟩ := hspace
    intro t
    have happend := returnType_append_of_mem hc hmem t
    rwa [List.append_assoc, List.singleton_append] at happend
  rw [read_eq_ok_iff, htext w hw, hfunction, hreturn] at h
  obtain ⟨-, hp, hreturned, list, hlist, harguments⟩ := h
  rw [argumentList?_of_not_mem (hnewline w hw hline)] at hlist
  obtain ⟨list', hlist', hsame⟩ := parenthesized?_blank_behind_comma hopen hw hlist
  have hshort := htext [] rfl
  have hnewline' := hnewline [] rfl hline'
  rw [List.nil_append, List.nil_append] at hshort
  rw [List.nil_append] at hnewline'
  have hends' : [';'] <:+ mend a ++ ',' :: mend b := by
    obtain ⟨front, rfl⟩ := hends
    have hend : mend (front ++ [';']) = mend front ++ [';'] := mend_append_cons (by decide) front []
    exact ⟨mend a ++ ',' :: mend front, by rw [hend]; simp⟩
  rw [read_eq_ok_iff, hshort, hfunction, hreturn]
  refine ⟨Text.endsWith_iff.mpr hends', hp, hreturned, list', ?_, ?_⟩
  · rw [argumentList?_of_not_mem hnewline', hlist']
  · rw [hsame, harguments]

end HeaderCards.Declaration
