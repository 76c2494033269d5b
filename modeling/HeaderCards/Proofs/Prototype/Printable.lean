import HeaderCards.Proofs.Prototype.Printed

/-!
# What reading a declaration yields

Whatever the text of a declaration, the pieces that are read from it can be told apart when
they are printed: the name is an identifier, the types are in normal form, and no piece holds
a character that ends it. Only a return type with a parenthesis is an exception, since
nothing keeps it from the first word of a text.
-/

namespace HeaderCards.Declaration

/-- The text of a declaration has nothing to mend. -/
theorem not_isInfix_textOf (lines : List Text) : ¬ "float*b".toList <:+: textOf lines := fun hi =>
  not_isInfix_mend lines.flatten (hi.trans (Text.trim_isInfix _))

/-- A text that begins with a visible character is only cut at its end. -/
theorem isPrefix_textOf {lines : List Text} {c : Char} {t : Text} (hlines : lines.flatten = c :: t)
    (hc : Text.isSpace c = false) : textOf lines <+: mend lines.flatten := by
  obtain ⟨s, hs⟩ := exists_mend_cons c t
  have htrim : textOf lines = Text.trimEnd (mend lines.flatten) := by
    rw [textOf, ← mend, hlines, hs, Text.trim, Text.trimStart_cons_of_visible hc]
  rw [htrim]
  exact Text.trimEnd_isPrefix _

/-- The argument list stands in the text. -/
theorem isInfix_of_argumentList? {t list : Text} (h : argumentList? t = some list) :
    list <:+: t := by
  obtain ⟨piece, hpiece, hlist⟩ := List.exists_of_findSome?_eq_some h
  refine List.IsInfix.trans ?_ (Text.isInfix_of_mem_splitOnP hpiece)
  rw [parenthesized?] at hlist
  split at hlist
  · contradiction
  · next c behind hopen =>
    have hbehind : behind <:+: piece :=
      (List.suffix_cons c behind).isInfix.trans (hopen ▸ (List.dropWhile_suffix _).isInfix)
    refine List.IsInfix.trans ?_ hbehind
    rw [Text.beforeLast?] at hlist
    split at hlist
    · contradiction
    · next x front hclose =>
      cases hlist
      have hfront : front <:+ behind.reverse :=
        (List.suffix_cons x front).trans (hclose ▸ List.dropWhile_suffix _)
      rw [← List.reverse_prefix, List.reverse_reverse] at hfront
      exact hfront.isInfix

/-- The return type holds no white space and stands in the text. -/
theorem of_returnType (t : Text) : Text.Solid (returnType t) ∧ returnType t <+: t := by
  refine ⟨fun c hc => ?_, List.takeWhile_prefix _⟩
  have hvisible := List.all_eq_true.mp List.all_takeWhile c hc
  simpa using hvisible

/-- White space at the end of a text is not part of its first word. -/
theorem returnType_append_blank {w : Text} (hw : Text.isBlank w = true) (t : Text) :
    returnType (t ++ w) = returnType t := by
  cases w with
  | nil => rw [List.append_nil]
  | cons c w =>
    rw [Text.isBlank_cons, Bool.and_eq_true] at hw
    exact returnType_append_cons hw.1 t w

/-- A blank ends the first word, even when all that follows it is trimmed away. -/
theorem returnType_trim {w : Text} (hne : w ≠ []) (hw : Text.Solid w) (t : Text) :
    returnType (Text.trim (w ++ ' ' :: t)) = w := by
  have hstart : Text.trimStart (w ++ ' ' :: t) = w ++ ' ' :: t := by
    obtain ⟨c, cs, hcons⟩ := List.exists_cons_of_ne_nil hne
    rw [hcons, List.cons_append]
    exact Text.trimStart_cons_of_visible (hw c (by simp [hcons])) _
  obtain ⟨v, hv, hend⟩ := Text.exists_trimEnd (w ++ ' ' :: t)
  have hfirst : returnType (w ++ ' ' :: t) = w := by
    rw [returnType_append_cons (by decide)]
    exact List.takeWhile_eq_self_iff.mpr fun c hc => by simp [hw c hc]
  rw [Text.trim, hstart, ← returnType_append_blank hv, ← hend, hfirst]

/-- A character of a type stands in one of its words, unless it separates them or is a star. -/
theorem mem_typeOf {c : Char} {ws : List Text} {stars : Text} (h : c ∈ typeOf ws stars) :
    c = ' ' ∨ c = '*' ∨ c ∈ stars ∨ ∃ w ∈ ws, c ∈ w := by
  rcases Text.mem_of_mem_replace (by decide) h with hmem | hstar
  · rcases List.mem_append.mp hmem with hmem | hmem
    · rcases Text.mem_intercalate hmem with hblank | ⟨w, hw, hc⟩
      · exact Or.inl (List.mem_singleton.mp hblank)
      · exact Or.inr (Or.inr (Or.inr ⟨w, (List.mem_filter.mp hw).1, hc⟩))
    · exact Or.inr (Or.inr (Or.inl hmem))
  · exact Or.inr (Or.inl (List.mem_singleton.mp hstar))

/-- An argument that is read from a piece without commas can be printed. -/
theorem printable_of_readArgument {function piece : Text} {a : Argument} (hcomma : ',' ∉ piece)
    (hmended : ¬ "float*b".toList <:+: piece) (h : readArgument function piece = .ok a) :
    a.Printable := by
  obtain ⟨ws, last, hwords, hne, rfl⟩ := readArgument_eq_ok_iff.mp h
  have hmem : ∀ w ∈ ws ++ [last], w ≠ [] ∧ Text.Solid w ∧ w <:+: piece := by
    intro w hw
    rw [← hwords] at hw
    exact ⟨Text.ne_nil_of_mem_words hw, Text.of_mem_words hw⟩
  have hws : ∀ w ∈ ws, w ≠ [] ∧ Text.Solid w ∧ w <:+: piece := fun w hw =>
    hmem w (List.mem_append_left [last] hw)
  obtain ⟨-, hsolid, hlast⟩ := hmem last (List.mem_append_right ws (List.mem_singleton_self last))
  have hstars : ∀ c ∈ last.takeWhile (· = '*'), c = '*' := fun c hc =>
    of_decide_eq_true (List.all_eq_true.mp List.all_takeWhile c hc)
  have hname : last.dropWhile (· = '*') <:+ last := List.dropWhile_suffix _
  constructor
  · exact .typeOf (fun w hw => ⟨(hws w hw).1, (hws w hw).2.1⟩) hstars
  · exact fun c hc => hsolid c (hname.subset hc)
  · refine ⟨hne, ?_⟩
    rintro ⟨rest, hrest⟩
    have hhead := List.head?_dropWhile_not (· = '*') last
    have hcons : last.dropWhile (· = '*') = '*' :: rest := hrest.symm
    simp [hcons] at hhead
  · refine ⟨fun hc => ?_, fun hc => hcomma (hlast.subset (hname.subset hc))⟩
    rcases mem_typeOf hc with he | he | he | ⟨w, hw, he⟩
    · exact absurd he (by decide)
    · exact absurd he (by decide)
    · exact absurd (hstars ',' he) (by decide)
    · exact hcomma ((hws w hw).2.2.subset he)
  · exact fun hi => hmended ((hi.trans hname.isInfix).trans hlast)

/-- The arguments of a declaration that has been read are named without white space. -/
theorem solid_name_of_read {lines : List Text} {p : Prototype}
    (h : Declaration.read lines = .ok p) : ∀ a ∈ p.arguments, a.name.Solid := by
  intro a ha
  obtain ⟨-, -, -, list, -, harguments⟩ := read_eq_ok_iff.mp h
  obtain ⟨piece, -, hread⟩ := exists_of_mem_mapM harguments ha
  obtain ⟨ws, last, hwords, -, rfl⟩ := readArgument_eq_ok_iff.mp hread
  have hlast : last ∈ Text.words (Text.trim piece) :=
    hwords ▸ List.mem_append_right ws (List.mem_singleton_self last)
  exact fun c hc => (Text.of_mem_words hlast).1 c ((List.dropWhile_suffix _).subset hc)

/-- A declaration that has been read can be printed, unless its return type has a parenthesis. -/
theorem printable_of_read {lines : List Text} {p : Prototype} (h : Declaration.read lines = .ok p)
    (hopen : '(' ∉ p.returnType) : p.Printable := by
  obtain ⟨hends, hname, hreturn, list, hlist, harguments⟩ := read_eq_ok_iff.mp h
  have hlist' : list <:+: textOf lines := isInfix_of_argumentList? hlist
  have hreturn' : p.returnType.Solid ∧ p.returnType <+: textOf lines := by
    rw [hreturn]
    exact of_returnType (textOf lines)
  constructor
  · exact isIdentifier_of_functionName? hname
  · refine ⟨?_, hreturn'.1⟩
    rw [hreturn]
    exact returnType_textOf_ne_nil hends
  · exact hopen
  · exact fun hi => not_isInfix_textOf lines (hi.trans hreturn'.2.isInfix)
  · rw [readArguments] at harguments
    constructor
    · intro hnil
      have hpieces := congrArg List.length (mapM_eq_ok_iff.mp harguments)
      rw [hnil, List.map_nil, List.length_nil, List.length_map, List.length_eq_zero_iff] at hpieces
      exact List.splitOn_ne_nil ',' list hpieces
    · intro a ha
      obtain ⟨piece, hpiece, hread⟩ := exists_of_mem_mapM harguments ha
      have htrim : Text.trim piece <:+: piece := Text.trim_isInfix piece
      have hmended : ¬ "float*b".toList <:+: Text.trim piece := fun hi => not_isInfix_textOf lines
        (((hi.trans htrim).trans (Text.isInfix_of_mem_splitOnP hpiece)).trans hlist')
      exact printable_of_readArgument
        (fun hc => Text.not_mem_of_mem_splitOn hpiece (htrim.subset hc)) hmended hread

end HeaderCards.Declaration
