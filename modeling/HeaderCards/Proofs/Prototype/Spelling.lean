import HeaderCards.Proofs.Prototype.Printed

/-!
# Spellings of an argument

An argument consists of the words of its type, some stars and a name. It can be written in many
ways: the stars stand behind the last word, on their own or in front of the name, qualifiers
stand anywhere in front of the name, and any white space separates the tokens. All spellings of
an argument are read as the same argument, which has one blank between two words of its type and
the stars at its end.
-/

namespace HeaderCards.Declaration

/-- A word that nothing in a declaration separates or ends. -/
def Plain (w : Text) : Prop :=
  w ≠ [] ∧ Text.Solid w ∧ ∀ c ∈ [',', '(', ')', '*', ';'], c ∉ w

/-- A number of stars. -/
def stars (k : Nat) : Text := List.replicate k '*'

instance (w : Text) : Decidable (Plain w) :=
  @instDecidableAnd _ _ _ (@instDecidableAnd _ _ _ (List.decidableBAll (· ∉ w) _))

/-- What an argument consists of. -/
structure Parts where
  words : List Text
  stars : Nat
  name : Text
  words_ne_nil : words ≠ []
  plain_words : ∀ w ∈ words, Plain w ∧ w ∉ qualifiers
  plain_name : Plain name

/-- The argument that has these parts. -/
def Parts.argument (p : Parts) : Argument :=
  ⟨Text.joined p.words ++ Declaration.stars p.stars, p.name⟩

/-- The tokens behind the words of an argument with this name. The number counts the stars. -/
inductive EndsArgument (name : Text) : Nat → List Text → Prop
  | name (k : Nat) : EndsArgument name k [stars k ++ name]
  | alone (i : Nat) {k : Nat} {tokens : List Text} : EndsArgument name k tokens →
      EndsArgument name (i + 1 + k) (stars (i + 1) :: tokens)
  | qualifier {q : Text} {k : Nat} {tokens : List Text} : q ∈ qualifiers →
      EndsArgument name k tokens → EndsArgument name k (q :: tokens)

/-- The tokens of an argument with these words and this name. The number counts the stars. -/
inductive Spells (name : Text) : List Text → Nat → List Text → Prop
  | last (w : Text) (i : Nat) {k : Nat} {tokens : List Text} : EndsArgument name k tokens →
      Spells name [w] (i + k) ((w ++ stars i) :: tokens)
  | word (w : Text) {v : Text} {ws : List Text} {k : Nat} {tokens : List Text} :
      Spells name (v :: ws) k tokens → Spells name (w :: v :: ws) k (w :: tokens)
  | qualifier {q : Text} {ws : List Text} {k : Nat} {tokens : List Text} : q ∈ qualifiers →
      Spells name ws k tokens → Spells name ws k (q :: tokens)

/-- White space within a line. -/
def Gap (t : Text) : Prop := Text.isBlank t = true ∧ Text.OneLine t

instance (t : Text) : Decidable (Gap t) := inferInstanceAs (Decidable (_ ∧ _))

/-- The tokens with a gap between two of them. -/
inductive Spaced : List Text → Text → Prop
  | last (token : Text) : Spaced [token] token
  | cons (token : Text) {gap t : Text} {tokens : List Text} : Gap gap → gap ≠ [] →
      Spaced tokens t → Spaced (token :: tokens) (token ++ (gap ++ t))

/-- The piece is a spelling of the argument with these parts, white space around it apart. -/
def Parts.WrittenAs (p : Parts) (piece : Text) : Prop :=
  ∃ tokens before t after, Spells p.name p.words p.stars tokens ∧ Spaced tokens t ∧
    Gap before ∧ Gap after ∧ piece = before ++ (t ++ after)

/-- What stands between two gaps: stars, a text without stars, and stars again. -/
def IsToken (t : Text) : Prop :=
  t ≠ [] ∧ ∃ i w k, t = stars i ++ (w ++ stars k) ∧ Text.Solid w ∧ ',' ∉ w ∧ '*' ∉ w

theorem eq_of_mem_stars {c : Char} {k : Nat} (h : c ∈ stars k) : c = '*' :=
  List.eq_of_mem_replicate h

@[simp] theorem stars_zero : stars 0 = [] := rfl

theorem stars_add (i k : Nat) : stars (i + k) = stars i ++ stars k :=
  List.replicate_add ..

theorem solid_stars (k : Nat) : Text.Solid (stars k) := fun c hc => by
  rw [eq_of_mem_stars hc]
  decide

theorem Plain.isToken {w : Text} (h : Plain w) (i k : Nat) :
    IsToken (stars i ++ (w ++ stars k)) := by
  refine ⟨?_, i, w, k, rfl, h.2.1, h.2.2 ',' (by decide), h.2.2 '*' (by decide)⟩
  simp [h.1]

theorem isToken_stars (i : Nat) : IsToken (stars (i + 1)) := by
  refine ⟨List.cons_ne_nil _ _, i + 1, [], 0, ?_, by decide, by simp, by simp⟩
  exact (List.append_nil _).symm

theorem isToken_of_mem_qualifiers {q : Text} (h : q ∈ qualifiers) : IsToken q := by
  have hq : q ≠ [] ∧ Text.Solid q ∧ ',' ∉ q ∧ '*' ∉ q := by
    rcases List.mem_pair.mp h with rfl | rfl <;> decide
  exact ⟨hq.1, 0, q, 0, (List.append_nil q).symm, hq.2⟩

namespace IsToken

variable {t : Text} (h : IsToken t)

include h

theorem solid : Text.Solid t := by
  obtain ⟨-, i, w, k, rfl, hw, -⟩ := h
  exact (solid_stars i).append (hw.append (solid_stars k))

theorem not_mem : ',' ∉ t := by
  obtain ⟨-, i, w, k, rfl, -, hw, -⟩ := h
  simp only [List.mem_append, not_or]
  exact ⟨fun hc => absurd (eq_of_mem_stars hc) (by decide), hw,
    fun hc => absurd (eq_of_mem_stars hc) (by decide)⟩

/-- No token has a star between other characters. -/
theorem not_isInfix : ¬ "float*b".toList <:+: t := by
  obtain ⟨-, i, w, k, rfl, -, -, hw⟩ := h
  have hstars : ∀ {c}, c ≠ '*' → ∀ j, c ∉ stars j := fun hc j hmem => hc (eq_of_mem_stars hmem)
  intro hi
  have hfront := Text.isInfix_of_append_of_not_mem (hstars (by decide) i) hi
  rw [← List.reverse_infix, List.reverse_append] at hfront
  have hback : "b*taolf".toList <:+: w.reverse :=
    Text.isInfix_of_append_of_not_mem (mt List.mem_reverse.mp (hstars (by decide) k)) hfront
  exact hw (List.mem_reverse.mp (hback.subset (by decide)))

end IsToken

theorem EndsArgument.isToken {name : Text} {k : Nat} {tokens : List Text} (hname : Plain name)
    (h : EndsArgument name k tokens) : ∀ t ∈ tokens, IsToken t := by
  induction h with
  | name k =>
    have htoken := hname.isToken k 0
    rw [stars_zero, List.append_nil] at htoken
    simpa using htoken
  | alone i _ ih => exact List.forall_mem_cons.mpr ⟨isToken_stars i, ih⟩
  | qualifier hq _ ih => exact List.forall_mem_cons.mpr ⟨isToken_of_mem_qualifiers hq, ih⟩

theorem Spells.isToken {name : Text} {ws : List Text} {k : Nat} {tokens : List Text}
    (hws : ∀ w ∈ ws, Plain w) (hname : Plain name) (h : Spells name ws k tokens) :
    ∀ t ∈ tokens, IsToken t := by
  induction h with
  | last w i h =>
    have hw := (hws w (List.mem_cons_self ..)).isToken 0 i
    exact List.forall_mem_cons.mpr ⟨hw, h.isToken hname⟩
  | word w _ ih =>
    obtain ⟨hw, hws⟩ := List.forall_mem_cons.mp hws
    have htoken := hw.isToken 0 0
    rw [stars_zero, List.nil_append, List.append_nil] at htoken
    exact List.forall_mem_cons.mpr ⟨htoken, ih hws⟩
  | qualifier hq _ ih => exact List.forall_mem_cons.mpr ⟨isToken_of_mem_qualifiers hq, ih hws⟩

/-- Tokens with gaps between them are found again. -/
theorem words_of_spaced {tokens : List Text} {t : Text} (h : Spaced tokens t)
    (htokens : ∀ w ∈ tokens, IsToken w) : Text.words t = tokens := by
  induction h with
  | last token =>
    have htoken := htokens token (List.mem_singleton_self token)
    exact Text.words_of_solid htoken.1 htoken.solid
  | @cons token gap t tokens hgap hne _ ih =>
    obtain ⟨htoken, hrest⟩ := List.forall_mem_cons.mp htokens
    obtain ⟨c, gap, rfl⟩ := List.exists_cons_of_ne_nil hne
    have hblank := hgap.1
    rw [Text.isBlank_cons, Bool.and_eq_true] at hblank
    rw [List.cons_append, Text.words_append_cons hblank.1, (Text.words_blank_append hblank.2 t).1,
      ih hrest, Text.words_of_solid htoken.1 htoken.solid, List.singleton_append]

theorem oneLine_of_spaced {tokens : List Text} {t : Text} (h : Spaced tokens t)
    (htokens : ∀ w ∈ tokens, IsToken w) : Text.OneLine t := by
  induction h with
  | last token =>
    exact (htokens token (List.mem_singleton_self token)).solid.not_mem (by decide)
  | @cons token gap t tokens hgap _ _ ih =>
    obtain ⟨htoken, hrest⟩ := List.forall_mem_cons.mp htokens
    have hfirst : Text.OneLine token := htoken.solid.not_mem (by decide)
    exact hfirst.append (hgap.2.append (ih hrest))

namespace Parts

variable {p : Parts} {piece : Text} (h : p.WrittenAs piece)

include h

/-- The words of a spelling are its tokens. -/
theorem WrittenAs.exists_words : ∃ tokens, Spells p.name p.words p.stars tokens ∧
    (∀ t ∈ tokens, IsToken t) ∧ Text.words piece = tokens := by
  obtain ⟨tokens, before, t, after, hspells, hspaced, hbefore, hafter, rfl⟩ := h
  have htokens := hspells.isToken (fun w hw => (p.plain_words w hw).1) p.plain_name
  refine ⟨tokens, hspells, htokens, ?_⟩
  rw [(Text.words_blank_append hbefore.1 _).1, (Text.words_blank_append hafter.1 t).2,
    words_of_spaced hspaced htokens]

/-- A spelling lies on one line. -/
theorem WrittenAs.oneLine : Text.OneLine piece := by
  obtain ⟨tokens, before, t, after, hspells, hspaced, hbefore, hafter, rfl⟩ := h
  have htokens := hspells.isToken (fun w hw => (p.plain_words w hw).1) p.plain_name
  exact hbefore.2.append ((oneLine_of_spaced hspaced htokens).append hafter.2)

/-- A spelling is not cut. -/
theorem WrittenAs.not_mem : ',' ∉ piece := by
  obtain ⟨tokens, -, htokens, hwords⟩ := h.exists_words
  intro hmem
  obtain ⟨t, ht, hi⟩ := Text.exists_mem_words_of_isInfix (List.cons_ne_nil ',' []) (by decide)
    ((List.singleton_infix_iff ',' piece).mpr hmem)
  exact (htokens t (hwords ▸ ht)).not_mem (hi.subset (List.mem_singleton_self ','))

/-- A spelling has nothing to mend. -/
theorem WrittenAs.mend_eq : mend piece = piece := by
  obtain ⟨tokens, -, htokens, hwords⟩ := h.exists_words
  refine Text.replace_of_not_infix _ fun hi => ?_
  obtain ⟨t, ht, hi⟩ := Text.exists_mem_words_of_isInfix (by decide) (by decide) hi
  exact (htokens t (hwords ▸ ht)).not_isInfix hi

end Parts

theorem filter_cons_of_not_mem {w : Text} (hw : w ∉ qualifiers) (ws : List Text) :
    (w :: ws).filter (· ∉ qualifiers) = w :: ws.filter (· ∉ qualifiers) :=
  List.filter_cons_of_pos (by simpa using hw)

theorem filter_cons_of_mem {q : Text} (hq : q ∈ qualifiers) (ws : List Text) :
    (q :: ws).filter (· ∉ qualifiers) = ws.filter (· ∉ qualifiers) :=
  List.filter_cons_of_neg (by simpa using hq)

theorem isPrefix_stars (i : Nat) : ['*'] <+: stars (i + 1) := ⟨stars i, rfl⟩

theorem not_mem_qualifiers_stars (i : Nat) : stars (i + 1) ∉ qualifiers :=
  (typeWord_of_mem (solid_stars _) ((isPrefix_stars i).subset (List.mem_singleton_self _))).2.2

/-- Stars behind a word that is no qualifier do not make it one. -/
theorem append_stars_not_mem_qualifiers {w : Text} (hw : Text.Solid w) (hq : w ∉ qualifiers)
    (i : Nat) : w ++ stars i ∉ qualifiers := by
  cases i with
  | zero => rwa [stars_zero, List.append_nil]
  | succ i =>
    have hne : stars (i + 1) ≠ [] := List.cons_ne_nil '*' (stars i)
    exact (typeWord_append_stars hw (fun _ => eq_of_mem_stars) hne).2.2

/-- Behind a word, the stars on their own and those of the name are put together. -/
theorem EndsArgument.exists_tighten {name : Text} {k : Nat} {tokens : List Text}
    (h : EndsArgument name k tokens) :
    ∃ ws i, tokens = ws ++ [stars i ++ name] ∧ ∀ w, ' ' ∉ w →
      tighten (Text.joined (w :: ws.filter (· ∉ qualifiers)) ++ stars i) = w ++ stars k := by
  -- the word in front is left open: for the tokens behind stars on their own, it is these stars
  induction h with
  | name k =>
    refine ⟨[], k, rfl, fun w hw => ?_⟩
    have hstars : tighten (stars k) = stars k :=
      Text.replace_of_not_infix _ fun hi => (solid_stars k).not_mem (by decide)
        (hi.subset (List.mem_cons_self ..))
    rw [List.filter_nil, Text.joined_singleton, tighten_append hw, hstars]
  | @alone i k tokens _ ih =>
    obtain ⟨ws, j, rfl, htighten⟩ := ih
    refine ⟨stars (i + 1) :: ws, j, rfl, fun w hw => ?_⟩
    have hstar : ['*'] <+: Text.joined (stars (i + 1) :: ws.filter (· ∉ qualifiers)) ++ stars j :=
      ((isPrefix_stars i).trans (Text.isPrefix_joined _ _)).trans (List.prefix_append _ _)
    rw [filter_cons_of_not_mem (not_mem_qualifiers_stars i),
      Text.joined_cons_cons, List.append_assoc, List.cons_append, tighten_append hw,
      tighten_blank_of_star hstar, htighten _ ((solid_stars _).not_mem (by decide)),
      stars_add (i + 1) k]
  | qualifier hq _ ih =>
    obtain ⟨ws, j, rfl, htighten⟩ := ih
    refine ⟨_ :: ws, j, rfl, fun w hw => ?_⟩
    rw [filter_cons_of_mem hq]
    exact htighten w hw

/-- Qualifiers are left out of the type, and its words are joined. No star stands in front of the
first of them. -/
theorem Spells.exists_tighten {name : Text} {ws : List Text} {k : Nat} {tokens : List Text}
    (hws : ∀ w ∈ ws, Plain w ∧ w ∉ qualifiers) (h : Spells name ws k tokens) :
    ∃ front i v vs, tokens = front ++ [stars i ++ name] ∧
      front.filter (· ∉ qualifiers) = v :: vs ∧ v ≠ [] ∧ ¬ ['*'] <+: v ∧
        tighten (Text.joined (v :: vs) ++ stars i) = Text.joined ws ++ stars k := by
  have hfirst : ∀ {w : Text} (t : Text), Plain w → w ++ t ≠ [] ∧ ¬ ['*'] <+: w ++ t := by
    intro w t hw
    refine ⟨by simp [hw.1], fun hp => hw.2.2 '*' (by decide) ?_⟩
    exact ((star_isPrefix_iff hw.1 (List.prefix_append w t)).mp hp).subset
      (List.mem_singleton_self _)
  induction h with
  | last w i h =>
    obtain ⟨hw, hq⟩ := hws w (List.mem_cons_self ..)
    obtain ⟨front, j, rfl, htighten⟩ := h.exists_tighten
    have hsolid : Text.Solid (w ++ stars i) := hw.2.1.append (solid_stars i)
    have hkeep := append_stars_not_mem_qualifiers hw.2.1 hq i
    refine ⟨(w ++ stars i) :: front, j, _, _, rfl, filter_cons_of_not_mem hkeep front,
      (hfirst _ hw).1, (hfirst _ hw).2, ?_⟩
    rw [htighten _ (hsolid.not_mem (by decide)), Text.joined_singleton, stars_add,
      List.append_assoc]
  | word w _ ih =>
    obtain ⟨⟨hw, hq⟩, hws⟩ := List.forall_mem_cons.mp hws
    obtain ⟨front, i, v, vs, rfl, hfilter, hv, hstar, htighten⟩ := ih hws
    have hstar' : ¬ ['*'] <+: Text.joined (v :: vs) ++ stars i := fun hp => hstar
      ((star_isPrefix_iff hv ((Text.isPrefix_joined v vs).trans (List.prefix_append _ _))).mp hp)
    have hw' := hfirst [] hw
    rw [List.append_nil] at hw'
    refine ⟨w :: front, i, w, v :: vs, rfl, ?_, hw'.1, hw'.2, ?_⟩
    · rw [filter_cons_of_not_mem hq, hfilter]
    · rw [Text.joined_cons_cons, List.append_assoc, List.cons_append,
        tighten_append (hw.2.1.not_mem (by decide)), tighten_blank hstar', htighten,
        Text.joined_cons_cons, List.append_assoc, List.cons_append]
  | qualifier hq _ ih =>
    obtain ⟨front, i, v, vs, rfl, hfilter, hfront⟩ := ih hws
    refine ⟨_ :: front, i, v, vs, rfl, ?_, hfront⟩
    rw [filter_cons_of_mem hq, hfilter]

/-- Every spelling of an argument is read as the argument. -/
theorem Parts.WrittenAs.readArgument {p : Parts} {piece : Text} (h : p.WrittenAs piece)
    (function : Text) : readArgument function (Text.trim piece) = .ok p.argument := by
  obtain ⟨tokens, hspells, -, hwords⟩ := h.exists_words
  obtain ⟨front, i, v, vs, rfl, hfilter, -, -, htighten⟩ :=
    hspells.exists_tighten p.plain_words
  obtain ⟨c, cs, hname⟩ := List.exists_cons_of_ne_nil p.plain_name.1
  have hc : c ≠ '*' := by
    rintro rfl
    exact p.plain_name.2.2 '*' (by decide) (hname ▸ List.mem_cons_self ..)
  obtain ⟨htake, hdrop⟩ := Text.span_append (p := (· = '*')) (a := Declaration.stars i)
    (b := p.name) (fun x hx => decide_eq_true (eq_of_mem_stars hx)) (by simpa [hname] using hc)
  refine readArgument_eq_ok_iff.mpr ⟨front, _, by rw [Text.words_trim, hwords], ?_, ?_⟩
  · rw [hdrop]
    exact p.plain_name.1
  · have htype : typeOf front (Declaration.stars i) =
        tighten (Text.joined (front.filter (· ∉ qualifiers)) ++ Declaration.stars i) := rfl
    rw [htake, hdrop, htype, hfilter, htighten]
    rfl

/-- The text of a declaration whose argument list has nothing to mend. -/
theorem textOf_of_mend_eq {ret name list : Text} (hne : ret ≠ []) (hsolid : Text.Solid ret)
    (hname : name.IsIdentifier) (hlist : mend list = list) :
    textOf [ret ++ ' ' :: (name ++ '(' :: (list ++ [')', ';']))] =
      mend ret ++ ' ' :: (name ++ '(' :: (list ++ [')', ';'])) := by
  have hname' : mend name = name := Text.replace_of_not_infix _ fun hi =>
    hname.not_mem (by decide : Text.isWord '*' = false) (hi.subset (by decide))
  have hend : mend (list ++ [')', ';']) = list ++ [')', ';'] := by
    rw [mend_append_cons (by decide), hlist]
    rfl
  obtain ⟨c, cs, rfl⟩ := List.exists_cons_of_ne_nil hne
  have hfront : ∀ x ∈ (c :: cs ++ ' ' :: (name ++ '(' :: (list ++ [')', ';']))).head?,
      Text.isSpace x = false := by
    rintro x ⟨⟩
    exact hsolid c (List.mem_cons_self ..)
  have hends : [';'] <:+ c :: cs ++ ' ' :: (name ++ '(' :: (list ++ [')', ';'])) :=
    ⟨c :: cs ++ ' ' :: (name ++ '(' :: (list ++ [')'])), by simp⟩
  rw [textOf_singleton hfront hends, mend_append_cons (by decide), mend_append_cons (by decide),
    hname', hend]

/-- The pieces of a list of spellings are spellings. -/
theorem exists_writtenAs {ps : List Parts} {pieces : List Text}
    (h : List.Forall₂ Parts.WrittenAs ps pieces) : ∀ q ∈ pieces, ∃ p : Parts, p.WrittenAs q := by
  intro q hq
  obtain ⟨p, -, hp⟩ := exists_left_of_forall₂ h hq
  exact ⟨p, hp⟩

/-- Spellings with commas between them are read one by one. -/
theorem readArguments_spelled {ps : List Parts} {pieces : List Text} (hps : ps ≠ [])
    (h : List.Forall₂ Parts.WrittenAs ps pieces) (function : Text) :
    readArguments function (List.intercalate "," pieces) = .ok (ps.map Parts.argument) := by
  have hne : pieces ≠ [] := by
    rintro rfl
    exact hps (List.forall₂_nil_right_iff.mp h)
  have hcut : (List.intercalate "," pieces).splitOn ',' = pieces := by
    refine List.splitOn_intercalate ',' (fun q hq => ?_) hne
    obtain ⟨p, hp⟩ := exists_writtenAs h q hq
    exact hp.not_mem
  rw [readArguments, hcut, mapM_eq_ok_iff_forall₂, List.forall₂_map_right_iff]
  exact (h.imp fun p q hq => hq.readArgument function).flip

/-- However the arguments of a declaration are spelled, they are read as they are. -/
theorem read_spelled {ret name : Text} {ps : List Parts} {pieces : List Text}
    (hret : ret ≠ [] ∧ Text.Solid ret ∧ '(' ∉ ret) (hname : name.IsIdentifier) (hps : ps ≠ [])
    (h : List.Forall₂ Parts.WrittenAs ps pieces) :
    Declaration.read [ret ++ ' ' :: (name ++ '(' :: (List.intercalate "," pieces ++ [')', ';']))] =
      .ok ⟨name, returnType (mend ret), ps.map Parts.argument⟩ := by
  obtain ⟨hne, hsolid, hopen⟩ := hret
  have hmend : mend (List.intercalate "," pieces) = List.intercalate "," pieces := by
    have hkeep : ∀ q ∈ pieces, mend q = id q := by
      intro q hq
      obtain ⟨p, hp⟩ := exists_writtenAs h q hq
      exact hp.mend_eq
    rw [mend_intercalate, List.map_congr_left hkeep, List.map_id]
  have hline : Text.OneLine (List.intercalate "," pieces) := by
    intro hmem
    rcases Text.mem_intercalate hmem with hsep | ⟨q, hq, hc⟩
    · exact absurd hsep (by decide)
    · obtain ⟨p, hp⟩ := exists_writtenAs h q hq
      exact hp.oneLine hc
  have hlines : ∀ l ∈ [ret ++ ' ' :: (name ++ '(' :: (List.intercalate "," pieces ++ [')', ';']))],
      Text.OneLine l := by
    intro l hl
    rw [List.mem_singleton.mp hl, Text.OneLine]
    simp only [List.mem_append, List.mem_cons, List.not_mem_nil, or_false, not_or]
    exact ⟨hsolid.not_mem (by decide), by decide, hname.solid.not_mem (by decide), by decide,
      hline, by decide, by decide⟩
  have hopen' : '(' ∉ mend ret := fun hm => hopen (mem_of_mem_mend (by decide) hm)
  rw [read_of_textOf (textOf_of_mend_eq hne hsolid hname hmend) hopen' hname
    (not_mem_textOf hlines), readArguments_spelled hps h name, map_ok]

/-- An argument with two words and three stars. -/
def tripleParts : Parts :=
  ⟨["unsigned", "float"], 3, "b", by decide +kernel, by decide +kernel, by decide +kernel⟩

/-- An argument without stars. -/
def plainParts : Parts :=
  ⟨["int"], 0, "n", by decide +kernel, by decide +kernel, by decide +kernel⟩

/-- Stars in three places and qualifiers between them are read like stars behind the words. -/
theorem read_of_spread_stars :
    Declaration.read ["float*b f(unsigned\tfloat* const * *b, OPENBLAS_CONST int n );"] =
      .ok ⟨"f", "float", [⟨"unsigned float***", "b"⟩, ⟨"int", "n"⟩]⟩ := by
  have htriple : tripleParts.WrittenAs "unsigned\tfloat* const * *b" :=
    ⟨["unsigned", "float*", "const", "*", "*b"], [], "unsigned\tfloat* const * *b", [],
      .word _ (.last _ 1 (.qualifier (by decide) (.alone 0 (.name 1)))),
      @Spaced.cons _ "\t" _ _ (by decide) (by decide)
        (@Spaced.cons _ " " _ _ (by decide) (by decide)
          (@Spaced.cons _ " " _ _ (by decide) (by decide)
            (@Spaced.cons _ " " _ _ (by decide) (by decide) (.last _)))),
      by decide, by decide, rfl⟩
  have hplain : plainParts.WrittenAs " OPENBLAS_CONST int n " :=
    ⟨["OPENBLAS_CONST", "int", "n"], " ", "OPENBLAS_CONST int n", " ",
      .qualifier (by decide) (.last _ 0 (.name 0)),
      @Spaced.cons _ " " _ _ (by decide) (by decide)
        (@Spaced.cons _ " " _ _ (by decide) (by decide) (.last _)),
      by decide, by decide, rfl⟩
  have hspelled := @read_spelled "float*b" "f" [tripleParts, plainParts]
    ["unsigned\tfloat* const * *b", " OPENBLAS_CONST int n "] (by decide +kernel)
    ⟨'f', [], rfl, by decide, by simp⟩ (by simp) (.cons htriple (.cons hplain .nil))
  have hparts : (⟨"f", returnType (mend "float*b"), [tripleParts, plainParts].map Parts.argument⟩ :
      Prototype) = ⟨"f", "float", [⟨"unsigned float***", "b"⟩, ⟨"int", "n"⟩]⟩ := by
    decide +kernel
  rw [hparts] at hspelled
  exact hspelled

end HeaderCards.Declaration
