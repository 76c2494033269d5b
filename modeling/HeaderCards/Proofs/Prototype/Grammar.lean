import HeaderCards.Proofs.Prototype.Printed

/-!
# The grammar of a declaration

What is read of a declaration is told by its text: that it ends in a semicolon, which call in
it is the first, what stands between its first opening and its last closing parenthesis, and
what the pieces between the commas are. Each way in which the text fails the grammar has an
error of its own, and the first that applies is reported.
-/

namespace HeaderCards.Declaration

/-- The list stands between the first opening and the last closing parenthesis of the text. -/
def Parenthesized (t list : Text) : Prop :=
  ∃ front behind, t = front ++ '(' :: (list ++ ')' :: behind) ∧ '(' ∉ front ∧ ')' ∉ behind

/-- No closing parenthesis stands behind the first opening one. -/
def Unclosed (t : Text) : Prop :=
  ∀ front behind, t = front ++ '(' :: behind → '(' ∉ front → ')' ∉ behind

theorem parenthesized?_eq_some {t list : Text} (h : Parenthesized t list) :
    parenthesized? t = some list := by
  obtain ⟨front, behind, rfl, hfront, hbehind⟩ := h
  rw [parenthesized?_append hfront, Text.beforeLast?_append hbehind]

theorem parenthesized?_eq_none {t : Text} (h : Unclosed t) : parenthesized? t = none := by
  by_cases hopen : '(' ∈ t
  · obtain ⟨front, behind, rfl, hfront⟩ := List.eq_append_cons_of_mem hopen
    rw [parenthesized?_append hfront, Text.beforeLast?_of_not_mem (h front behind rfl hfront)]
  · exact parenthesized?_of_not_mem hopen

/-- A text has a list between its parentheses, unless the first is not closed. -/
theorem exists_parenthesized (t : Text) : (∃ list, Parenthesized t list) ∨ Unclosed t := by
  by_cases hopen : '(' ∈ t
  · obtain ⟨front, behind, rfl, hfront⟩ := List.eq_append_cons_of_mem hopen
    by_cases hclose : ')' ∈ behind
    · obtain ⟨list, rest, rfl, hrest⟩ := Text.eq_append_cons_of_mem_last hclose
      exact .inl ⟨list, front, rest, rfl, hfront, hrest⟩
    · refine .inr fun front' behind' h hfront' => ?_
      rwa [← (Text.eq_of_append_cons_eq hfront hfront' h).2]
  · exact .inr fun front behind h => absurd (h ▸ by simp) hopen

/-- The last word of the piece consists of stars. -/
def Starred (piece : Text) : Prop :=
  ∃ ws last, Text.words piece = ws ++ [last] ∧ ∀ c ∈ last, c = '*'

/-- The last word of the piece is the name of the argument with stars in front of it, and the
words before it and these stars are its type. -/
def Declares (piece : Text) (a : Argument) : Prop :=
  ∃ ws stars, Text.words piece = ws ++ [stars ++ a.name] ∧ (∀ c ∈ stars, c = '*') ∧
    (∃ c cs, a.name = c :: cs ∧ c ≠ '*') ∧ a.type = typeOf ws stars

theorem readArgument_of_isBlank {piece : Text} (h : Text.isBlank piece = true) (function : Text) :
    readArgument function (Text.trim piece) = .error (.emptyArgument function) := by
  have hwords : Text.words (Text.trim piece) = [] := by
    rw [Text.words_trim, Text.words_eq_nil_iff.mpr h]
  simp [readArgument, hwords]

theorem readArgument_of_starred {piece : Text} (h : Starred piece) (function : Text) :
    readArgument function (Text.trim piece) =
      .error (.malformed .argumentName (Text.trim piece)) := by
  obtain ⟨ws, last, hwords, hstars⟩ := h
  have hlast : (Text.words (Text.trim piece)).getLast? = some last := by
    rw [Text.words_trim, hwords, List.getLast?_concat]
  have hnil : last.dropWhile (· = '*') = [] :=
    List.dropWhile_eq_nil_iff.mpr (by simpa using hstars)
  simp [readArgument, hlast, hnil]

theorem readArgument_of_declares {piece : Text} {a : Argument} (h : Declares piece a)
    (function : Text) : readArgument function (Text.trim piece) = .ok a := by
  obtain ⟨ws, stars, hwords, hstars, ⟨c, cs, hname, hc⟩, htype⟩ := h
  obtain ⟨htake, hdrop⟩ := Text.span_append (p := (· = '*')) (a := stars) (b := a.name)
    (by simpa using hstars) (by simpa [hname] using hc)
  refine readArgument_eq_ok_iff.mpr ⟨ws, stars ++ a.name, by rw [Text.words_trim, hwords], ?_, ?_⟩
  · rw [hdrop, hname]
    exact List.cons_ne_nil c cs
  · rw [htake, hdrop, ← htype]

/-- A piece declares an argument, unless it is blank or its last word consists of stars. -/
theorem exists_declares {piece : Text} (hblank : Text.isBlank piece = false)
    (hstarred : ¬ Starred piece) : ∃ a, Declares piece a := by
  have hne : Text.words piece ≠ [] := by
    rw [Ne, Text.words_eq_nil_iff, hblank]
    decide
  obtain ⟨ws, last, hwords⟩ := (List.eq_nil_or_concat (Text.words piece)).resolve_left hne
  rw [List.concat_eq_append] at hwords
  have hsplit := List.takeWhile_append_dropWhile (p := (· = '*')) (l := last)
  have hstars : ∀ c ∈ last.takeWhile (· = '*'), c = '*' := fun c hc => by
    simpa using List.mem_takeWhile_imp hc
  cases hname : last.dropWhile (· = '*') with
  | nil =>
    rw [hname, List.append_nil] at hsplit
    exact absurd ⟨ws, last, hwords, hsplit ▸ hstars⟩ hstarred
  | cons c cs =>
    have hc : c ≠ '*' := by
      have hhead := List.head?_dropWhile_not (· = '*') last
      simpa [hname] using hhead
    rw [hname] at hsplit
    exact ⟨⟨_, c :: cs⟩, ws, _, by rw [hwords, hsplit], hstars, ⟨c, cs, rfl, hc⟩, rfl⟩

/-- What is read of a declaration with this text, one case for each outcome. -/
inductive Reads (t : Text) : Except DeclarationError Prototype → Prop
  /-- The text does not end in a semicolon. -/
  | unterminated : ¬ (";" : Text) <:+ t → Reads t (.error (.unterminated t))
  /-- Nothing is called in the text. -/
  | functionName : (";" : Text) <:+ t → (∀ front name, ¬ Calls t front name) →
      Reads t (.error (.malformed .functionName t))
  /-- The first opening parenthesis is not closed. -/
  | argumentList {name : Text} : (";" : Text) <:+ t → FirstCall t name → Unclosed t →
      Reads t (.error (.malformed .argumentList t))
  /-- The first faulty piece of the list is blank. -/
  | emptyArgument {name list piece : Text} {before after : List Text} : (";" : Text) <:+ t →
      FirstCall t name → Parenthesized t list → list.splitOn ',' = before ++ piece :: after →
      (∀ q ∈ before, Text.isBlank q = false ∧ ¬ Starred q) → Text.isBlank piece = true →
      Reads t (.error (.emptyArgument name))
  /-- The first faulty piece of the list has stars for a name. -/
  | argumentName {name list piece : Text} {before after : List Text} : (";" : Text) <:+ t →
      FirstCall t name → Parenthesized t list → list.splitOn ',' = before ++ piece :: after →
      (∀ q ∈ before, Text.isBlank q = false ∧ ¬ Starred q) → Starred piece →
      Reads t (.error (.malformed .argumentName (Text.trim piece)))
  /-- Every piece of the list declares an argument. -/
  | prototype {p : Prototype} {list : Text} : (";" : Text) <:+ t → FirstCall t p.name →
      (Text.words t).head? = some p.returnType → Parenthesized t list →
      List.Forall₂ Declares (list.splitOn ',') p.arguments → Reads t (.ok p)

/-- A text of pieces declares arguments, unless one of them is the first that is faulty. -/
theorem exists_forall₂_declares (pieces : List Text) :
    (∃ as, List.Forall₂ Declares pieces as) ∨
      ∃ before piece after, pieces = before ++ piece :: after ∧
        (∀ q ∈ before, Text.isBlank q = false ∧ ¬ Starred q) ∧
          (Text.isBlank piece = true ∨ Starred piece) := by
  induction pieces with
  | nil => exact .inl ⟨[], .nil⟩
  | cons piece pieces ih =>
    by_cases hfaulty : Text.isBlank piece = true ∨ Starred piece
    · exact .inr ⟨[], piece, pieces, rfl, by simp, hfaulty⟩
    · rw [not_or, Bool.not_eq_true] at hfaulty
      rcases ih with ⟨as, has⟩ | ⟨before, q, after, rfl, hbefore, hq⟩
      · obtain ⟨a, ha⟩ := exists_declares hfaulty.1 hfaulty.2
        exact .inl ⟨a :: as, .cons ha has⟩
      · exact .inr ⟨piece :: before, q, after, rfl, List.forall_mem_cons.mpr ⟨hfaulty, hbefore⟩, hq⟩

/-- Every text has an outcome. -/
theorem exists_reads (t : Text) : ∃ r, Reads t r := by
  by_cases hends : (";" : Text) <:+ t
  · cases hname : functionName? t with
    | none => exact ⟨_, .functionName hends (functionName?_eq_none_iff.mp hname)⟩
    | some name =>
      have hcall := functionName?_eq_some_iff.mp hname
      rcases exists_parenthesized t with ⟨list, hlist⟩ | hunclosed
      · rcases exists_forall₂_declares (list.splitOn ',') with
          ⟨as, has⟩ | ⟨before, piece, after, hpieces, hbefore, hblank | hstarred⟩
        · have hsemicolon : ';' ∈ t := hends.subset (by decide)
          obtain ⟨w, hw, -⟩ := Text.exists_mem_words_of_isInfix (List.cons_ne_nil ';' [])
            (by decide) ((List.singleton_infix_iff ';' t).mpr hsemicolon)
          obtain ⟨v, vs, hwords⟩ := List.exists_cons_of_ne_nil (List.ne_nil_of_mem hw)
          exact ⟨_, .prototype (p := ⟨name, v, as⟩) hends hcall (by rw [hwords]; rfl) hlist has⟩
        · exact ⟨_, .emptyArgument hends hcall hlist hpieces hbefore hblank⟩
        · exact ⟨_, .argumentName hends hcall hlist hpieces hbefore hstarred⟩
      · exact ⟨_, .argumentList hends hcall hunclosed⟩
  · exact ⟨_, .unterminated hends⟩

/-- The faultless pieces in front of a faulty one are read. -/
theorem readArguments_of_faulty {function list piece : Text} {before after : List Text}
    {e : DeclarationError} (hpieces : list.splitOn ',' = before ++ piece :: after)
    (hbefore : ∀ q ∈ before, Text.isBlank q = false ∧ ¬ Starred q)
    (hpiece : readArgument function (Text.trim piece) = .error e) :
    readArguments function list = .error e := by
  rw [readArguments, hpieces]
  refine mapM_eq_error (fun q hq => ?_) hpiece
  obtain ⟨a, ha⟩ := exists_declares (hbefore q hq).1 (hbefore q hq).2
  exact ⟨a, readArgument_of_declares ha function⟩

/-- The return type is the first word of the text. -/
theorem returnType_of_words {lines : List Text} {w : Text} (hne : textOf lines ≠ [])
    (h : (Text.words (textOf lines)).head? = some w) : returnType (textOf lines) = w := by
  obtain ⟨c, cs, hcons⟩ := List.exists_cons_of_ne_nil hne
  have hfirst := Text.head?_words (Text.visible_of_trim_eq_cons hcons) cs
  rw [← hcons, h] at hfirst
  exact (Option.some.inj hfirst).symm

/-- The outcome that the grammar gives to a text is what is read of it. -/
theorem read_of_reads {lines : List Text} {r : Except DeclarationError Prototype}
    (hline : '\n' ∉ textOf lines) (h : Reads (textOf lines) r) : Declaration.read lines = r := by
  have hread : (";" : Text) <:+ textOf lines → Declaration.read lines = _ := fun hends =>
    read_of_endsWith (Text.endsWith_iff.mpr hends)
  rw [argumentList?_of_not_mem hline] at hread
  cases h with
  | unterminated hends =>
    rw [Declaration.read, if_neg (mt Text.endsWith_iff.mp hends)]
  | functionName hends hcalls => rw [hread hends, functionName?_eq_none_iff.mpr hcalls]
  | argumentList hends hcall hunclosed =>
    simp only [hread hends, functionName?_eq_some_iff.mpr hcall, parenthesized?_eq_none hunclosed]
  | emptyArgument hends hcall hlist hpieces hbefore hblank =>
    simp only [hread hends, functionName?_eq_some_iff.mpr hcall, parenthesized?_eq_some hlist,
      readArguments_of_faulty hpieces hbefore (readArgument_of_isBlank hblank _), map_error]
  | argumentName hends hcall hlist hpieces hbefore hstarred =>
    simp only [hread hends, functionName?_eq_some_iff.mpr hcall, parenthesized?_eq_some hlist,
      readArguments_of_faulty hpieces hbefore (readArgument_of_starred hstarred _), map_error]
  | @prototype p list hends hcall hreturn hlist harguments =>
    have hne : textOf lines ≠ [] := fun hnil => by simp [hnil] at hends
    have hreturn' : returnType (textOf lines) = p.returnType := returnType_of_words hne hreturn
    have harguments' : readArguments p.name list = .ok p.arguments :=
      mapM_eq_ok_iff_forall₂.mpr
        (harguments.imp fun piece a ha => readArgument_of_declares ha p.name)
    simp only [hread hends, functionName?_eq_some_iff.mpr hcall, parenthesized?_eq_some hlist,
      harguments', map_ok, hreturn']

/-- A declaration whose lines hold no line feeds is read as the grammar of its text says: it has
the outcome of its text and no other. The return type is never missing, and a declaration that is
read has an argument for every piece, so it has one at least. -/
theorem read_by_grammar {lines : List Text} (h : ∀ l ∈ lines, Text.OneLine l) :
    (∀ r, Declaration.read lines = r ↔ Reads (textOf lines) r) ∧
      (∀ t, Declaration.read lines ≠ .error (.malformed .returnType t)) ∧
        ∀ p, Declaration.read lines = .ok p → p.arguments ≠ [] := by
  have hread : ∀ r, Declaration.read lines = r ↔ Reads (textOf lines) r := by
    intro r
    refine ⟨?_, read_of_reads (not_mem_textOf h)⟩
    rintro rfl
    obtain ⟨r, hr⟩ := exists_reads (textOf lines)
    rwa [read_of_reads (not_mem_textOf h) hr]
  refine ⟨hread, fun t ht => ?_, fun p hp hnil => ?_⟩
  · cases (hread _).mp ht
  · cases (hread _).mp hp with
    | prototype _ _ _ _ harguments =>
      rw [hnil, List.forall₂_nil_right_iff] at harguments
      exact List.splitOn_ne_nil ',' _ harguments

/-- A declaration that is wrapped in front of the star of its second argument. -/
def joinedLines : List Text := ["void f(g(int), float".toList, "*b);".toList]

/-- A declaration with an argument of stars only in front of one that is blank. -/
def faultyLines : List Text := ["void f(int a, double **,".toList, " );".toList]

/-- The arguments of a wrapped declaration are the pieces of its list, and of two faulty pieces
the first is reported. -/
theorem read_of_joined_and_faulty :
    Declaration.read joinedLines = .ok ⟨"f", "void", [⟨"", "g(int)"⟩, ⟨"float*", "b"⟩]⟩ ∧
      Reads (textOf joinedLines) (.ok ⟨"f", "void", [⟨"", "g(int)"⟩, ⟨"float*", "b"⟩]⟩) ∧
      Declaration.read faultyLines = .error (.malformed .argumentName "double **") ∧
      Reads (textOf faultyLines) (.error (.malformed .argumentName "double **")) := by
  have hjoined : Declaration.read joinedLines =
      .ok ⟨"f", "void", [⟨"", "g(int)"⟩, ⟨"float*", "b"⟩]⟩ := by
    decide +kernel
  have hfaulty : Declaration.read faultyLines = .error (.malformed .argumentName "double **") := by
    decide +kernel
  exact ⟨hjoined, ((read_by_grammar (by decide +kernel)).1 _).mp hjoined,
    hfaulty, ((read_by_grammar (by decide +kernel)).1 _).mp hfaulty⟩

end HeaderCards.Declaration
