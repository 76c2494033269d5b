import HeaderCards.Proofs.Outcome
import HeaderCards.Proofs.Prototype.Call
import HeaderCards.Proofs.Prototype.TypeText
import HeaderCards.Proofs.Text.Lines

/-!
# Reading a printed declaration

A prototype whose pieces can be told apart in its printed form is read back from it. Mending
the printed line may put blanks into the types of its arguments, and does nothing else to it.
-/

namespace HeaderCards

open Declaration

/-- An argument that is read back from its printed form. -/
structure Argument.Printable (a : Argument) : Prop where
  type : NormalType a.type
  solid : Text.Solid a.name
  named : a.name ≠ [] ∧ ¬ ['*'] <+: a.name
  whole : ',' ∉ a.type ∧ ',' ∉ a.name
  mended : ¬ "float*b".toList <:+: a.name

/-- A prototype that is read back from its printed form. -/
structure Prototype.Printable (p : Prototype) : Prop where
  name : p.name.IsIdentifier
  returnType : p.returnType ≠ [] ∧ Text.Solid p.returnType
  opening : '(' ∉ p.returnType
  mended : ¬ "float*b".toList <:+: p.returnType
  arguments : p.arguments ≠ [] ∧ ∀ a ∈ p.arguments, a.Printable

namespace Declaration

theorem parenthesized?_of_not_mem {t : Text} (h : '(' ∉ t) : parenthesized? t = none := by
  have hdrop : t.dropWhile (· ≠ '(') = [] := by
    refine List.dropWhile_eq_nil_iff.mpr fun c hc => ?_
    simpa using fun he : c = '(' => h (he ▸ hc)
  simp only [parenthesized?, hdrop]

/-- The arguments stand between the first opening and the last closing parenthesis. -/
theorem parenthesized?_append {a : Text} (ha : '(' ∉ a) (b : Text) :
    parenthesized? (a ++ '(' :: b) = Text.beforeLast? ')' b := by
  have hfront : ∀ c ∈ a, decide (c ≠ '(') = true := by
    intro c hc
    simpa using fun he : c = '(' => ha (he ▸ hc)
  have hdrop : (a ++ '(' :: b).dropWhile (· ≠ '(') = '(' :: b :=
    (Text.span_append hfront (by simp)).2
  simp only [parenthesized?, hdrop]

/-- The arguments of a text without line feeds are those of its only line. -/
theorem argumentList?_of_not_mem {t : Text} (h : '\n' ∉ t) :
    argumentList? t = parenthesized? t := by
  rw [argumentList?, List.splitOn_eq_singleton h, List.findSome?_singleton]

/-- An argument is read from its words. -/
theorem readArgument_eq_ok_iff {function piece : Text} {a : Argument} :
    readArgument function piece = .ok a ↔
      ∃ ws last, Text.words piece = ws ++ [last] ∧ last.dropWhile (· = '*') ≠ [] ∧
        a = ⟨typeOf ws (last.takeWhile (· = '*')), last.dropWhile (· = '*')⟩ := by
  rcases List.eq_nil_or_concat (Text.words piece) with hnil | ⟨ws, last, hwords⟩
  · simp [readArgument, hnil]
  · rw [List.concat_eq_append] at hwords
    have hlast : (Text.words piece).getLast? = some last := by rw [hwords, List.getLast?_concat]
    have hinit : (Text.words piece).dropLast = ws := by rw [hwords, List.dropLast_concat]
    simp only [readArgument, hlast, hinit]
    constructor
    · intro h
      split at h
      · contradiction
      · next hne =>
        cases h
        exact ⟨ws, last, hwords, hne, rfl⟩
    · rintro ⟨vs, v, hvs, hne, rfl⟩
      obtain ⟨rfl, hv⟩ := List.append_inj' (hwords.symm.trans hvs) rfl
      cases hv
      rw [if_neg hne]

/-- A printed argument is read back, whatever white space stands around it. -/
theorem readArgument_printed {a : Argument} (h : a.Printable) (function : Text) {w : Text}
    (hw : Text.isBlank w = true) :
    readArgument function (Text.trim (w ++ (mend a.type ++ ' ' :: a.name))) = .ok a := by
  have hwords : Text.words (Text.trim (w ++ (mend a.type ++ ' ' :: a.name))) =
      Text.words (mend a.type) ++ [a.name] := by
    rw [Text.words_trim, (Text.words_blank_append hw _).1, Text.words_append_cons (by decide),
      Text.words_of_solid h.named.1 h.solid]
  obtain ⟨c, cs, hname⟩ := List.exists_cons_of_ne_nil h.named.1
  have hc : c ≠ '*' := by
    rintro rfl
    exact h.named.2 ⟨cs, hname.symm⟩
  have hstars : a.name.takeWhile (· = '*') = [] := by simp [hname, hc]
  have hrest : a.name.dropWhile (· = '*') = a.name := by simp [hname, hc]
  refine readArgument_eq_ok_iff.mpr ⟨_, _, hwords, ?_, ?_⟩
  · rw [hrest]
    exact h.named.1
  · rw [hstars, hrest, h.type.typeOf_words_mend]

/-- The arguments as they stand between the parentheses of a printed declaration. -/
def argumentText (as : List Argument) : Text := List.intercalate ", " (as.map Argument.render)

theorem argumentText_singleton (a : Argument) : argumentText [a] = a.type ++ ' ' :: a.name := by
  simp [argumentText, Argument.render]

theorem argumentText_cons_cons (a b : Argument) (as : List Argument) :
    argumentText (a :: b :: as) =
      (a.type ++ ' ' :: a.name) ++ ',' :: ' ' :: argumentText (b :: as) := by
  simp [argumentText, Argument.render, List.intercalate_cons_cons]

/-- The argument with its type mended. -/
def mendType (a : Argument) : Argument := { a with type := mend a.type }

/-- Mending reaches only the types of the arguments. -/
theorem mend_argumentText {as : List Argument} (h : ∀ a ∈ as, a.Printable) :
    mend (argumentText as) = argumentText (as.map mendType) := by
  have hone : ∀ a ∈ as, mend (a.type ++ ' ' :: a.name) = mend a.type ++ ' ' :: a.name := by
    intro a ha
    rw [mend_append_cons (by decide)]
    exact congrArg _ (congrArg _ (Text.replace_of_not_infix _ (h a ha).mended))
  induction as with
  | nil => rfl
  | cons a as ih =>
    cases as with
    | nil =>
      rw [List.map_singleton, argumentText_singleton, argumentText_singleton]
      exact hone a (List.mem_cons_self ..)
    | cons b as =>
      have hblank : mend (' ' :: argumentText (b :: as)) = ' ' :: mend (argumentText (b :: as)) :=
        mend_append_cons (by decide) [] _
      rw [List.map_cons, List.map_cons, argumentText_cons_cons, argumentText_cons_cons,
        mend_append_cons (by decide), hone a (List.mem_cons_self ..), hblank,
        ih (fun x hx => h x (List.mem_cons_of_mem a hx))
          fun x hx => hone x (List.mem_cons_of_mem a hx)]
      rfl

/-- Printed arguments are read back. -/
theorem readArguments_printed {as : List Argument} (hne : as ≠ []) (h : ∀ a ∈ as, a.Printable)
    (function : Text) {w : Text} (hw : Text.isBlank w = true) (hcomma : ',' ∉ w) :
    readArguments function (w ++ argumentText (as.map mendType)) = .ok as := by
  induction as generalizing w with
  | nil => contradiction
  | cons a as ih =>
    have ha := h a (List.mem_cons_self ..)
    have hpiece : ',' ∉ w ++ (mend a.type ++ ' ' :: a.name) := by
      simp only [List.mem_append, List.mem_cons, not_or]
      exact ⟨hcomma, fun hm => ha.whole.1 (mem_of_mem_mend (by decide) hm), by decide, ha.whole.2⟩
    have hread := readArgument_printed ha function hw
    cases as with
    | nil =>
      have htext : argumentText ([a].map mendType) = mend a.type ++ ' ' :: a.name :=
        argumentText_singleton (mendType a)
      rw [htext, readArguments, List.splitOn_eq_singleton hpiece, List.mapM_cons, hread]
      rfl
    | cons b as =>
      have htext : argumentText ((a :: b :: as).map mendType) = (mend a.type ++ ' ' :: a.name) ++
          ',' :: ([' '] ++ argumentText ((b :: as).map mendType)) :=
        argumentText_cons_cons (mendType a) (mendType b) (as.map mendType)
      have hrest := ih (List.cons_ne_nil b as) (fun x hx => h x (List.mem_cons_of_mem a hx))
        (w := [' ']) (by decide) (by decide)
      rw [readArguments] at hrest
      rw [htext, readArguments, ← List.append_assoc,
        List.splitOn_append_cons_self_of_not_mem hpiece, List.mapM_cons, hread, hrest]
      rfl

/-- The text of lines without line feeds has none. -/
theorem not_mem_textOf {lines : List Text} (h : ∀ l ∈ lines, Text.OneLine l) :
    '\n' ∉ textOf lines := by
  intro hmem
  obtain ⟨l, hl, hc⟩ := List.mem_flatten.mp
    (mem_of_mem_mend (by decide) ((Text.trim_isInfix _).subset hmem))
  exact h l hl hc

/-- A text that ends in a semicolon has a first word. -/
theorem returnType_textOf_ne_nil {lines : List Text}
    (h : Text.endsWith (textOf lines) ";" = true) : returnType (textOf lines) ≠ [] := by
  have hne : textOf lines ≠ [] := by
    intro hnil
    rw [hnil] at h
    exact absurd h (by decide)
  obtain ⟨c, cs, hcons⟩ := List.exists_cons_of_ne_nil hne
  have hc : Text.isSpace c = false := Text.visible_of_trim_eq_cons hcons
  rw [returnType, hcons, List.takeWhile_cons_of_pos (by simp [hc])]
  exact List.cons_ne_nil c _

/-- Of a text that ends in a semicolon the name, the argument list and the arguments are read, in
this order; its return type is always there. -/
theorem read_of_endsWith {lines : List Text} (h : Text.endsWith (textOf lines) ";" = true) :
    Declaration.read lines =
      match functionName? (textOf lines) with
      | none => .error (.malformed .functionName (textOf lines))
      | some name =>
        match argumentList? (textOf lines) with
        | none => .error (.malformed .argumentList (textOf lines))
        | some list =>
          (readArguments name list).map fun arguments =>
            ⟨name, returnType (textOf lines), arguments⟩ := by
  cases hname : functionName? (textOf lines) with
  | none => simp only [Declaration.read, h, hname, if_true]
  | some name =>
    cases hlist : argumentList? (textOf lines) with
    | none => simp only [Declaration.read, h, hname, hlist, if_true]
    | some list =>
      simp only [Declaration.read, h, hname, hlist, if_true, if_neg (returnType_textOf_ne_nil h)]

/-- What is read from a declaration is read from its pieces. -/
theorem read_eq_ok_iff {lines : List Text} {p : Prototype} :
    Declaration.read lines = .ok p ↔
      Text.endsWith (textOf lines) ";" = true ∧ functionName? (textOf lines) = some p.name ∧
        p.returnType = returnType (textOf lines) ∧
          ∃ list, argumentList? (textOf lines) = some list ∧
            readArguments p.name list = .ok p.arguments := by
  cases hends : Text.endsWith (textOf lines) ";" with
  | false =>
    rw [Declaration.read, hends]
    simp
  | true =>
    rw [read_of_endsWith hends]
    cases hname : functionName? (textOf lines) with
    | none => simp
    | some name =>
      cases hlist : argumentList? (textOf lines) with
      | none => simp
      | some list =>
        simp only [map_eq_ok_iff, true_and, Option.some.injEq, exists_eq_left']
        constructor
        · rintro ⟨arguments, harguments, rfl⟩
          exact ⟨rfl, rfl, harguments⟩
        · rintro ⟨rfl, hreturn, harguments⟩
          exact ⟨p.arguments, harguments, by rw [← hreturn]⟩

/-- A line with a visible front and a semicolon at its end is only mended. -/
theorem textOf_singleton {t : Text} (hfront : ∀ c ∈ t.head?, Text.isSpace c = false)
    (hends : [';'] <:+ t) : textOf [t] = mend t := by
  obtain ⟨c, cs, rfl⟩ := List.exists_cons_of_ne_nil (hends.ne_nil (List.cons_ne_nil ';' []))
  obtain ⟨front, hsplit⟩ := hends
  have hend : mend (c :: cs) = mend front ++ [';'] := by
    rw [← hsplit]
    exact mend_append_cons (by decide) front []
  obtain ⟨rest, hrest⟩ := exists_mend_cons c cs
  rw [textOf, List.flatten_singleton]
  exact Text.trim_eq_self (hfront c rfl) (by decide) hrest hend

/-- White space ends the first word. -/
theorem returnType_append_cons {c : Char} (hc : Text.isSpace c = true) (a t : Text) :
    returnType (a ++ c :: t) = returnType a := by
  induction a with
  | nil => exact List.takeWhile_cons_of_neg (by simp [hc])
  | cons x a ih =>
    rw [returnType, returnType] at ih ⊢
    by_cases hx : Text.isSpace x = true
    · rw [List.cons_append, List.takeWhile_cons_of_neg (by simp [hx]),
        List.takeWhile_cons_of_neg (by simp [hx])]
    · rw [List.cons_append, List.takeWhile_cons_of_pos (by simpa using hx),
        List.takeWhile_cons_of_pos (by simpa using hx), ih]

/-- A declaration is read from its return type, its name and the text between its parentheses. -/
theorem read_of_textOf {lines : List Text} {ret name list : Text}
    (h : textOf lines = ret ++ ' ' :: (name ++ '(' :: (list ++ [')', ';'])))
    (hret : '(' ∉ ret) (hname : name.IsIdentifier) (hline : '\n' ∉ textOf lines) :
    Declaration.read lines =
      (readArguments name list).map fun arguments => ⟨name, returnType ret, arguments⟩ := by
  have hends : Text.endsWith (textOf lines) ";" = true :=
    Text.endsWith_iff.mpr ⟨ret ++ ' ' :: (name ++ '(' :: (list ++ [')'])), by simp [h]⟩
  have hopen : '(' ∉ ret ++ ' ' :: name := by
    simp only [List.mem_append, List.mem_cons, not_or]
    exact ⟨hret, by decide, hname.not_mem (by decide)⟩
  have hsplit : textOf lines = (ret ++ ' ' :: name) ++ '(' :: (list ++ ')' :: [';']) := by
    rw [h, List.append_assoc, List.cons_append]
  have hfunction : functionName? (textOf lines) = some name := by
    rw [h, functionName?_behind hret hname]
  have hlist : argumentList? (textOf lines) = some list := by
    rw [argumentList?_of_not_mem hline, hsplit, parenthesized?_append hopen,
      Text.beforeLast?_append (by decide)]
  have hreturn : returnType (textOf lines) = returnType ret := by
    rw [h, returnType_append_cons (by decide)]
  rw [read_of_endsWith hends]
  simp only [hfunction, hlist, hreturn]

end Declaration

/-- The pieces of a printed declaration. -/
theorem Prototype.render_eq (p : Prototype) :
    p.render =
      p.returnType ++ ' ' :: (p.name ++ '(' :: (argumentText p.arguments ++ [')', ';'])) := by
  simp [render, argumentText]

/-- A printed declaration ends in a semicolon. -/
theorem Prototype.render_eq_append (p : Prototype) : ∃ front, p.render = front ++ [';'] :=
  ⟨p.returnType ++ ' ' :: (p.name ++ '(' :: (argumentText p.arguments ++ [')'])), by
    simp [render_eq]⟩

/-- A printed declaration has no white space at its ends. -/
theorem Prototype.trim_render {p : Prototype} (hne : p.returnType ≠ [])
    (hsolid : Text.Solid p.returnType) : Text.trim p.render = p.render := by
  obtain ⟨c, cs, hcons⟩ := List.exists_cons_of_ne_nil hne
  have hfront : p.render =
      c :: (cs ++ ' ' :: (p.name ++ '(' :: (argumentText p.arguments ++ [')', ';']))) := by
    rw [render_eq, hcons, List.cons_append]
  obtain ⟨front, hend⟩ := p.render_eq_append
  exact Text.trim_eq_self (hsolid c (by simp [hcons])) (by decide) hfront hend

namespace Prototype.Printable

variable {p : Prototype} (h : p.Printable)

include h

/-- Mending a printed declaration mends the types of its arguments. -/
theorem mend_render :
    mend p.render = { p with arguments := p.arguments.map mendType }.render := by
  have hname : ¬ "float*b".toList <:+: p.name := fun hi =>
    h.name.not_mem (by decide : Text.isWord '*' = false) (hi.subset (by decide))
  have hmended : ∀ {t : Text}, ¬ "float*b".toList <:+: t → mend t = t :=
    Text.replace_of_not_infix _
  rw [render_eq, render_eq, mend_append_cons (by decide), mend_append_cons (by decide),
    mend_append_cons (by decide), hmended h.mended, hmended hname,
    mend_argumentText h.arguments.2]
  rfl

/-- The only white space in a printed declaration are blanks. -/
theorem not_mem_render {c : Char} (hc : Text.isSpace c = true) (hne : c ≠ ' ') : c ∉ p.render := by
  have hvisible : ∀ x, Text.isSpace x = false → c ≠ x := by
    rintro x hx rfl
    rw [hc] at hx
    contradiction
  have harguments : c ∉ argumentText p.arguments := by
    intro hmem
    rcases Text.mem_intercalate hmem with hsep | ⟨t, ht, hct⟩
    · rcases List.mem_pair.mp hsep with rfl | rfl
      · exact hvisible ',' (by decide) rfl
      · exact hne rfl
    · obtain ⟨a, ha, rfl⟩ := List.mem_map.mp ht
      have hprintable := h.arguments.2 a ha
      rw [Argument.render, List.mem_append, List.mem_append] at hct
      rcases hct with (hct | hct) | hct
      · exact hprintable.type.not_mem hc hne hct
      · exact hne (List.mem_singleton.mp hct)
      · exact hprintable.solid.not_mem hc hct
  rw [render_eq]
  simp only [List.mem_append, List.mem_cons, not_or, List.not_mem_nil, not_false_eq_true, and_true]
  exact ⟨h.returnType.2.not_mem hc, hne, h.name.solid.not_mem hc, hvisible '(' (by decide),
    harguments, hvisible ')' (by decide), hvisible ';' (by decide)⟩

/-- A printed declaration is read back. -/
theorem read_render : Declaration.read [p.render] = .ok p := by
  have htext : textOf [p.render] = { p with arguments := p.arguments.map mendType }.render := by
    have hjoin : textOf [p.render] = Text.trim (mend p.render) := by
      rw [textOf, List.flatten_singleton, mend]
    rw [hjoin, h.mend_render]
    exact trim_render h.returnType.1 h.returnType.2
  have hline : '\n' ∉ { p with arguments := p.arguments.map mendType }.render := by
    rw [← h.mend_render]
    exact fun hm => h.not_mem_render (by decide) (by decide) (mem_of_mem_mend (by decide) hm)
  have hreturn : Declaration.returnType p.returnType = p.returnType :=
    List.takeWhile_eq_self_iff.mpr fun c hc => by simp [h.returnType.2 c hc]
  have harguments : readArguments p.name (argumentText (p.arguments.map mendType)) =
      .ok p.arguments :=
    readArguments_printed h.arguments.1 h.arguments.2 p.name (w := []) rfl (by simp)
  have hpieces := htext.trans (render_eq _)
  rw [← htext] at hline
  rw [read_of_textOf hpieces h.opening h.name hline, harguments, map_ok, hreturn]

end Prototype.Printable

end HeaderCards
