import HeaderCards.Proofs.Prototype.Printed

/-!
# Stars and qualifiers that are glued

An argument is cut into words at white space, and at nothing else. A star in the middle of the
last word therefore stays in the name of the argument, and a qualifier that has a star at its
side is a word of its own kind, which no filter recognises. Apart from these two ways of gluing
the name of an argument is free of stars and its type is free of qualifiers.
-/

namespace HeaderCards.Declaration

/-- The words of a type, cut at white space and at stars. -/
def bareWords (t : Text) : List Text :=
  (t.splitOnP fun c => Text.isSpace c || c == '*').filter (· ≠ [])

/-- The word has a star behind a character that is none. -/
def StarBehind (w : Text) : Prop :=
  ∃ front behind, w = front ++ '*' :: behind ∧ ∃ c ∈ front, c ≠ '*'

/-- The word is no qualifier, but it has one when it is cut at its stars. -/
def QualifierGlued (w : Text) : Prop := w ∉ qualifiers ∧ ∃ q ∈ bareWords w, q ∈ qualifiers

@[simp] theorem bareWords_nil : bareWords [] = [] := rfl

/-- White space and stars separate the words on either side. -/
theorem bareWords_append_cons {c : Char} (hc : Text.isSpace c = true ∨ c = '*') (a b : Text) :
    bareWords (a ++ c :: b) = bareWords a ++ bareWords b := by
  have hsep : (Text.isSpace c || c == '*') = true := by simpa using hc
  rw [bareWords, bareWords, bareWords, List.splitOnP_append_cons a b hsep, List.filter_append]

theorem bareWords_append_blank (a b : Text) :
    bareWords (a ++ ' ' :: b) = bareWords a ++ bareWords b :=
  bareWords_append_cons (Or.inl (by decide)) a b

theorem bareWords_append_star (a b : Text) :
    bareWords (a ++ '*' :: b) = bareWords a ++ bareWords b :=
  bareWords_append_cons (Or.inr rfl) a b

/-- Stars behind a text belong to no word. -/
theorem bareWords_append_stars {stars : Text} (hstars : ∀ c ∈ stars, c = '*') (t : Text) :
    bareWords (t ++ stars) = bareWords t := by
  induction stars generalizing t with
  | nil => rw [List.append_nil]
  | cons c stars ih =>
    have hrest := ih (fun x hx => hstars x (List.mem_cons_of_mem c hx)) []
    rw [hstars c (List.mem_cons_self ..), bareWords_append_star]
    rw [List.nil_append] at hrest
    rw [hrest, bareWords_nil, List.append_nil]

/-- Joined words are cut word by word. -/
theorem bareWords_joined (ws : List Text) : bareWords (Text.joined ws) = ws.flatMap bareWords := by
  induction ws with
  | nil => rfl
  | cons w ws ih =>
    cases ws with
    | nil => rw [Text.joined_singleton, List.flatMap_singleton]
    | cons v ws =>
      rw [Text.joined_cons_cons, bareWords_append_blank, ih]
      exact List.flatMap_cons.symm

/-- A blank in front of a star separates nothing that the star does not. The text in front is
left open, since a word may begin in it. -/
theorem bareWords_append_tighten (front t : Text) :
    bareWords (front ++ tighten t) = bareWords (front ++ t) := by
  induction t using Text.replace_induction (by decide : " *".toList ≠ []) generalizing front with
  | nil => rfl
  | occurrence rest ih =>
    have hrest : bareWords (tighten rest) = bareWords rest := ih []
    calc bareWords (front ++ tighten (' ' :: '*' :: rest))
        = bareWords front ++ bareWords rest := by
          rw [tighten_blank_star, bareWords_append_star, hrest]
      _ = bareWords ((front ++ [' ']) ++ '*' :: rest) := by
          rw [bareWords_append_star, bareWords_append_blank front [], bareWords_nil,
            List.append_nil]
      _ = bareWords (front ++ ' ' :: '*' :: rest) := by
          rw [List.append_assoc, List.singleton_append]
  | keep c cs hs ih =>
    have hkeep : tighten (c :: cs) = c :: tighten cs := Text.replace_cons_of_not_startsWith _ hs
    have hfront := ih (front ++ [c])
    rw [List.append_assoc, List.append_assoc, List.singleton_append, List.singleton_append]
      at hfront
    rw [hkeep, hfront]

/-- The words of the type of an argument are those of its words that are no qualifiers. -/
theorem bareWords_typeOf (ws : List Text) {stars : Text} (hstars : ∀ c ∈ stars, c = '*') :
    bareWords (typeOf ws stars) = (ws.filter (· ∉ qualifiers)).flatMap bareWords := by
  have htype : typeOf ws stars =
      tighten (Text.joined (ws.filter (· ∉ qualifiers)) ++ stars) := rfl
  have htighten := bareWords_append_tighten [] (Text.joined (ws.filter (· ∉ qualifiers)) ++ stars)
  rw [List.nil_append, List.nil_append] at htighten
  rw [htype, htighten, bareWords_append_stars hstars, bareWords_joined]

/-- A star is left in a word without its leading stars when it has one behind another
character. -/
theorem star_mem_dropWhile_iff (w : Text) : '*' ∈ w.dropWhile (· = '*') ↔ StarBehind w := by
  induction w with
  | nil => simp [StarBehind]
  | cons x w ih =>
    by_cases hx : x = '*'
    · subst hx
      rw [List.dropWhile_cons_of_pos (by simp), ih]
      constructor
      · rintro ⟨front, behind, rfl, c, hc, hne⟩
        exact ⟨'*' :: front, behind, rfl, c, List.mem_cons_of_mem _ hc, hne⟩
      · rintro ⟨front, behind, hsplit, c, hc, hne⟩
        cases front with
        | nil => contradiction
        | cons y front =>
          obtain ⟨rfl, rfl⟩ := List.cons.inj hsplit
          exact ⟨front, behind, rfl, c, (List.mem_cons.mp hc).resolve_left hne, hne⟩
    · rw [List.dropWhile_cons_of_neg (by simpa using hx)]
      constructor
      · intro hmem
        obtain ⟨front, behind, rfl⟩ :=
          List.append_of_mem ((List.mem_cons.mp hmem).resolve_left (Ne.symm hx))
        exact ⟨x :: front, behind, rfl, x, List.mem_cons_self .., hx⟩
      · rintro ⟨front, behind, hsplit, -⟩
        rw [hsplit]
        exact List.mem_append_right front (List.mem_cons_self ..)

/-- What gluing leaves in an argument that is read from a piece of the list: a star in the name
comes from the last word, a qualifier in the type from one of the words in front of it. -/
def GluedAs (piece : Text) (a : Argument) : Prop :=
  ∃ ws last, Text.words piece = ws ++ [last] ∧ ('*' ∈ a.name ↔ StarBehind last) ∧
    ((∃ q ∈ bareWords a.type, q ∈ qualifiers) ↔ ∃ w ∈ ws, QualifierGlued w)

/-- An argument that is read has just what is glued in its words. -/
theorem gluedAs_of_readArgument {function piece : Text} {a : Argument}
    (h : readArgument function piece = .ok a) : GluedAs piece a := by
  obtain ⟨ws, last, hwords, -, rfl⟩ := readArgument_eq_ok_iff.mp h
  refine ⟨ws, last, hwords, star_mem_dropWhile_iff last, ?_⟩
  have hstars : ∀ c ∈ last.takeWhile (· = '*'), c = '*' := fun c hc => by
    simpa using List.mem_takeWhile_imp hc
  simp only [bareWords_typeOf ws hstars, List.mem_flatMap, List.mem_filter, decide_eq_true_eq]
  constructor
  · rintro ⟨q, ⟨w, ⟨hw, hfree⟩, hq⟩, hqualifier⟩
    exact ⟨w, hw, hfree, q, hq, hqualifier⟩
  · rintro ⟨w, hw, hfree, q, hq, hqualifier⟩
    exact ⟨q, ⟨w, ⟨hw, hfree⟩, hq⟩, hqualifier⟩

/-- In a declaration that is read, the name of an argument is free of stars unless its word has
one behind another character, and its type is free of qualifiers unless one of its words has a
qualifier glued to stars. -/
theorem arguments_by_gluing {lines : List Text} {p : Prototype} (h : read lines = .ok p) :
    ∃ list, argumentList? (textOf lines) = some list ∧
      List.Forall₂ GluedAs (list.splitOn ',') p.arguments := by
  obtain ⟨-, -, -, list, hlist, harguments⟩ := read_eq_ok_iff.mp h
  refine ⟨list, hlist, (forall₂_of_mapM harguments).imp fun piece a ha => ?_⟩
  have hglued := gluedAs_of_readArgument ha
  rwa [GluedAs, Text.words_trim] at hglued

/-- Glued and well separated arguments side by side. -/
theorem arguments_of_glued :
    let lines : List Text :=
      ["void cblas_f(float*x, float const* y, ", "float *const z, int const n);"]
    let p : Prototype := ⟨"cblas_f", "void",
      [⟨"", "float*x"⟩, ⟨"float const*", "y"⟩, ⟨"float*const", "z"⟩, ⟨"int", "n"⟩]⟩
    read lines = .ok p ∧ ∃ list, argumentList? (textOf lines) = some list ∧
      List.Forall₂ GluedAs (list.splitOn ',') p.arguments := by
  intro lines p
  have h : read lines = .ok p := by decide +kernel
  exact ⟨h, arguments_by_gluing h⟩

/-- A star glued to the name stays in it, and a qualifier glued to a star stays in the type. -/
theorem star_and_qualifier_kept :
    let p : Prototype := ⟨"cblas_f", "void", [⟨"", "float*x"⟩, ⟨"float const*", "y"⟩]⟩
    read ["void cblas_f(float*x, float const* y);"] = .ok p ∧
      (∃ a ∈ p.arguments, '*' ∈ a.name) ∧
        ∃ a ∈ p.arguments, ∃ q ∈ bareWords a.type, q ∈ qualifiers := by
  decide +kernel

end HeaderCards.Declaration
