import HeaderCards.Proofs.Text.Replace
import HeaderCards.Proofs.Text.Words
import HeaderCards.Prototype.Declaration

/-!
# The written form of argument types

The type of an argument is written with words that are separated by single blanks. None of
them is a qualifier, and no blank precedes a star. Reading a declaration may put a blank into
such a type, between `float` and `*b`; reading the type takes it out again.
-/

namespace HeaderCards.Declaration

/-- The text with a blank before the star wherever `float` is glued to `*b`. -/
def mend (t : Text) : Text := Text.replace "float*b" "float *b" t

/-- The text without a blank in front of a star. -/
def tighten (t : Text) : Text := Text.replace " *" "*" t

/-- A word that may stand in a type. -/
def TypeWord (w : Text) : Prop := w ≠ [] ∧ Text.Solid w ∧ w ∉ qualifiers

/-- No qualifier has a star. -/
theorem typeWord_of_mem {w : Text} (hw : Text.Solid w) (hstar : '*' ∈ w) : TypeWord w := by
  refine ⟨List.ne_nil_of_mem hstar, hw, fun hmem => ?_⟩
  rcases List.mem_pair.mp hmem with rfl | rfl
  · exact absurd hstar (by decide)
  · exact absurd hstar (by decide)

/-- No qualifier ends in `float`. -/
theorem typeWord_of_isSuffix {w : Text} (hw : Text.Solid w) (hfloat : "float".toList <:+ w) :
    TypeWord w := by
  refine ⟨?_, hw, fun hmem => ?_⟩
  · rintro rfl
    exact absurd hfloat (by decide)
  · rcases List.mem_pair.mp hmem with rfl | rfl
    · exact absurd hfloat (by decide)
    · exact absurd hfloat (by decide)

theorem tighten_append {v : Text} (hv : ' ' ∉ v) (t : Text) : tighten (v ++ t) = v ++ tighten t :=
  Text.replace_append_of_not_mem hv t

theorem tighten_blank_star (t : Text) : tighten (' ' :: '*' :: t) = '*' :: tighten t :=
  Text.replace_append (List.cons_ne_nil ' ' ['*']) "*" t

/-- A blank that precedes no star is kept. -/
theorem tighten_blank {t : Text} (ht : ¬ ['*'] <+: t) : tighten (' ' :: t) = ' ' :: tighten t := by
  apply Text.replace_cons_of_not_startsWith
  rw [← Bool.not_eq_true, Text.startsWith_iff]
  exact fun hp => ht (List.cons_prefix_cons.mp hp).2

/-- A blank that precedes a star is taken out. -/
theorem tighten_blank_of_star {t : Text} (ht : ['*'] <+: t) :
    tighten (' ' :: t) = tighten t := by
  obtain ⟨rest, rfl⟩ := ht
  rw [List.singleton_append, tighten_blank_star]
  exact (tighten_append (v := ['*']) (by decide) rest).symm

/-- Whether a text begins with a star is told by any front of it that is not empty. -/
theorem star_isPrefix_iff {v t : Text} (hv : v ≠ []) (h : v <+: t) : ['*'] <+: t ↔ ['*'] <+: v := by
  obtain ⟨c, cs, rfl⟩ := List.exists_cons_of_ne_nil hv
  obtain ⟨rest, rfl⟩ := h
  rw [List.cons_append, List.cons_prefix_cons, List.cons_prefix_cons]
  simp

/-- Joined words are tightened word by word: a word with a star in front is added to the word
before it. -/
theorem exists_tighten_joined {w : Text} {ws : List Text} (h : ∀ v ∈ w :: ws, TypeWord v) :
    ∃ u us, tighten (Text.joined (w :: ws)) = Text.joined (u :: us) ∧ w <+: u ∧
      (∀ v ∈ u :: us, TypeWord v) ∧ ∀ v ∈ us, ¬ ['*'] <+: v := by
  induction ws generalizing w with
  | nil =>
    have hw := tighten_append ((h w (List.mem_cons_self ..)).2.1.not_mem (by decide)) []
    rw [List.append_nil] at hw
    refine ⟨w, [], ?_, List.prefix_rfl, h, by simp⟩
    rw [Text.joined_singleton, hw]
    exact List.append_nil w
  | cons v ws ih =>
    have hw := h w (List.mem_cons_self ..)
    have hv := h v (List.mem_cons_of_mem w (List.mem_cons_self ..))
    obtain ⟨u, us, heq, hpre, hwords, hstars⟩ := ih fun x hx => h x (List.mem_cons_of_mem w hx)
    rw [Text.joined_cons_cons, tighten_append (hw.2.1.not_mem (by decide))]
    have hfirst : ['*'] <+: Text.joined (v :: ws) ↔ ['*'] <+: v :=
      star_isPrefix_iff hv.1 (Text.isPrefix_joined v ws)
    by_cases hstar : ['*'] <+: v
    · have hmem : '*' ∈ w ++ u := List.mem_append_right w ((hstar.trans hpre).subset (by simp))
      have hsolid : Text.Solid (w ++ u) := hw.2.1.append (hwords u (List.mem_cons_self ..)).2.1
      refine ⟨w ++ u, us, ?_, List.prefix_append w u, ?_, hstars⟩
      · rw [tighten_blank_of_star (hfirst.mpr hstar), heq, Text.append_joined]
      · intro x hx
        rcases List.mem_cons.mp hx with rfl | hx
        · exact typeWord_of_mem hsolid hmem
        · exact hwords x (List.mem_cons_of_mem u hx)
    · refine ⟨w, u :: us, ?_, List.prefix_rfl, ?_, ?_⟩
      · rw [tighten_blank (mt hfirst.mp hstar), heq, ← Text.joined_cons_cons]
      · intro x hx
        rcases List.mem_cons.mp hx with rfl | hx
        · exact hw
        · exact hwords x hx
      · intro x hx
        rcases List.mem_cons.mp hx with rfl | hx
        · exact mt (star_isPrefix_iff hv.1 hpre).mp hstar
        · exact hstars x hx

/-- No blank precedes a star when only the first word may begin with one. -/
theorem not_isInfix_joined {u : Text} {us : List Text} (hwords : ∀ v ∈ u :: us, TypeWord v)
    (hstars : ∀ v ∈ us, ¬ ['*'] <+: v) : ¬ " *".toList <:+: Text.joined (u :: us) := by
  induction us generalizing u with
  | nil =>
    intro hi
    rw [Text.joined_singleton] at hi
    have hblank : ' ' ∈ u := hi.subset (by decide)
    exact (hwords u (List.mem_cons_self ..)).2.1.not_mem (by decide) hblank
  | cons v us ih =>
    intro hi
    rw [Text.joined_cons_cons] at hi
    have hu := (hwords u (List.mem_cons_self ..)).2.1
    have htail := Text.isInfix_of_append_of_not_mem (hu.not_mem (by decide)) hi
    have hv := (hwords v (List.mem_cons_of_mem u (List.mem_cons_self ..))).1
    rcases List.infix_cons_iff.mp htail with hp | hi
    · have hstar : ['*'] <+: Text.joined (v :: us) := (List.cons_prefix_cons.mp hp).2
      exact hstars v (List.mem_cons_self ..)
        ((star_isPrefix_iff hv (Text.isPrefix_joined v us)).mp hstar)
    · exact ih (fun x hx => hwords x (List.mem_cons_of_mem u hx))
        (fun x hx => hstars x (List.mem_cons_of_mem v hx)) hi

theorem mend_append (t : Text) : mend ("float*b" ++ t) = "float *b" ++ mend t :=
  Text.replace_append (by decide) "float *b" t

/-- Mending does not reach across a character that `float*b` does not hold. -/
theorem mend_append_cons {c : Char} (hc : c ∉ "float*b".toList) (a b : Text) :
    mend (a ++ c :: b) = mend a ++ c :: mend b :=
  Text.replace_append_cons (by decide) hc a b

/-- White space in front of a text is kept. -/
theorem mend_blank_append {w : Text} (hw : Text.isBlank w = true) (t : Text) :
    mend (w ++ t) = w ++ mend t := by
  refine Text.replace_append_of_not_mem (fun hf => ?_) t
  exact absurd (List.all_eq_true.mp hw 'f' hf) (by decide)

/-- Texts with commas between them are mended one by one. -/
theorem mend_intercalate (ts : List Text) :
    mend (List.intercalate "," ts) = List.intercalate "," (ts.map mend) := by
  induction ts with
  | nil => rfl
  | cons t ts ih =>
    cases ts with
    | nil => rw [List.map_singleton, List.intercalate_singleton, List.intercalate_singleton]
    | cons u ts =>
      rw [List.map_cons] at ih ⊢
      rw [List.map_cons, List.intercalate_cons_cons, List.intercalate_cons_cons, List.append_assoc,
        List.append_assoc, ← ih]
      exact mend_append_cons (by decide) t _

/-- Mending keeps the first character. -/
theorem exists_mend_cons (c : Char) (t : Text) : ∃ s, mend (c :: t) = c :: s := by
  cases hs : Text.startsWith (c :: t) "float*b" with
  | false => exact ⟨mend t, Text.replace_cons_of_not_startsWith _ hs⟩
  | true =>
    obtain ⟨rest, hrest⟩ := Text.startsWith_iff.mp hs
    obtain ⟨rfl, -⟩ := List.cons.inj hrest
    refine ⟨"loat *b".toList ++ mend rest, ?_⟩
    rw [← hrest, mend_append]
    rfl

/-- Mending puts nothing new at the front of a text but what begins with `f`. -/
theorem isPrefix_of_isPrefix_mend {z t : Text} (hz : 'f' ∉ z) (h : z <+: mend t) : z <+: t :=
  Text.isPrefix_of_isPrefix_replace hz h

/-- Mending adds nothing but blanks. -/
theorem mem_of_mem_mend {c : Char} (hc : c ∉ "float *b".toList) {t : Text} (h : c ∈ mend t) :
    c ∈ t :=
  (Text.mem_of_mem_replace (by decide) h).resolve_right hc

/-- A mended text has nothing left to mend. -/
theorem not_isInfix_mend (t : Text) : ¬ "float*b".toList <:+: mend t := by
  induction t using Text.replace_induction (by decide : "float*b".toList ≠ []) with
  | nil => decide
  | occurrence rest ih =>
    have hsplit : ("float *b" ++ mend rest : Text) =
        "float".toList ++ ' ' :: ("*b".toList ++ mend rest) := rfl
    intro hi
    rw [mend_append, hsplit] at hi
    rcases Text.isInfix_of_append_cons (by decide) hi with hi | hi
    · exact absurd hi.length_le (by decide)
    · exact ih (Text.isInfix_of_append_of_not_mem (by decide) hi)
  | keep c cs hs ih =>
    have hkeep : mend (c :: cs) = c :: mend cs := Text.replace_cons_of_not_startsWith _ hs
    rw [hkeep, List.infix_cons_iff]
    rintro (hp | hi)
    · obtain ⟨rfl, htail⟩ := List.cons_prefix_cons.mp hp
      have hfront : "loat*b".toList <+: cs :=
        isPrefix_of_isPrefix_mend (by decide) htail
      rw [← Bool.not_eq_true, Text.startsWith_iff] at hs
      exact hs (List.cons_prefix_cons.mpr ⟨rfl, hfront⟩)
    · exact ih hi

/-- Tightening takes out every blank that mending puts in. -/
theorem tighten_mend {t : Text} (h : ¬ " *".toList <:+: t) : tighten (mend t) = t := by
  induction t using Text.replace_induction (by decide : "float*b".toList ≠ []) with
  | nil => rfl
  | occurrence rest ih =>
    have hrest : ¬ " *".toList <:+: rest := fun hi =>
      h (hi.trans (List.suffix_append _ rest).isInfix)
    have hsplit : ("float *b" ++ mend rest : Text) =
        "float".toList ++ ' ' :: '*' :: ("b".toList ++ mend rest) := rfl
    rw [mend_append, hsplit, tighten_append (by decide), tighten_blank_star,
      tighten_append (by decide), ih hrest]
    rfl
  | keep c cs hs ih =>
    have hkeep : mend (c :: cs) = c :: mend cs := Text.replace_cons_of_not_startsWith _ hs
    have hcs : ¬ " *".toList <:+: cs := fun hi => h (hi.trans (List.suffix_cons c cs).isInfix)
    rw [hkeep]
    by_cases hc : c = ' '
    · subst hc
      have hstar : ¬ ['*'] <+: mend cs := by
        intro hp
        have hfront : ['*'] <+: cs := isPrefix_of_isPrefix_mend (by decide) hp
        exact h (List.cons_prefix_cons.mpr ⟨rfl, hfront⟩).isInfix
      rw [tighten_blank hstar, ih hcs]
    · have hfirst := tighten_append (v := [c]) (by simpa using Ne.symm hc) (mend cs)
      rw [List.singleton_append] at hfirst
      rw [hfirst, ih hcs, List.singleton_append]

/-- A word is mended to words of which all but the first have a star. The first one ends in
`float`, unless there is nothing to mend. -/
private theorem exists_mend_solid {w : Text} (hw : Text.Solid w) :
    ∃ u us, mend w = Text.joined (u :: us) ∧ (∀ v ∈ u :: us, Text.Solid v) ∧
      (us = [] ∧ u = w ∨ "float".toList <:+ u) ∧ ∀ v ∈ us, '*' ∈ v := by
  induction w using Text.replace_induction (by decide : "float*b".toList ≠ []) with
  | nil => exact ⟨[], [], rfl, by simpa using hw, Or.inl ⟨rfl, rfl⟩, by simp⟩
  | occurrence rest ih =>
    obtain ⟨u, us, heq, hsolid, -, hstars⟩ := ih fun c hc => hw c (List.mem_append_right _ hc)
    have hglued : Text.Solid ("*b".toList ++ u) :=
      Text.Solid.append (by decide) (hsolid u (List.mem_cons_self ..))
    refine ⟨"float", ("*b".toList ++ u) :: us, ?_, ?_, Or.inr List.suffix_rfl, ?_⟩
    · have hsplit : ("float *b" ++ mend rest : Text) =
          "float".toList ++ ' ' :: ("*b".toList ++ mend rest) := rfl
      rw [mend_append, hsplit, heq, Text.append_joined, Text.joined_cons_cons]
    · intro v hv
      rcases List.mem_cons.mp hv with rfl | hv
      · exact (by decide : Text.Solid "float".toList)
      · rcases List.mem_cons.mp hv with rfl | hv
        · exact hglued
        · exact hsolid v (List.mem_cons_of_mem u hv)
    · intro v hv
      rcases List.mem_cons.mp hv with rfl | hv
      · exact List.mem_append_left u (by decide)
      · exact hstars v hv
  | keep c cs hs ih =>
    have hkeep : mend (c :: cs) = c :: mend cs := Text.replace_cons_of_not_startsWith _ hs
    obtain ⟨u, us, heq, hsolid, hfirst, hstars⟩ := ih fun x hx => hw x (List.mem_cons_of_mem c hx)
    refine ⟨c :: u, us, ?_, ?_, ?_, hstars⟩
    · rw [hkeep, heq]
      exact Text.append_joined [c] u us
    · intro v hv
      rcases List.mem_cons.mp hv with rfl | hv
      · have hc : Text.Solid [c] := by simpa [Text.Solid] using hw c (List.mem_cons_self ..)
        exact hc.append (hsolid u (List.mem_cons_self ..))
      · exact hsolid v (List.mem_cons_of_mem u hv)
    · rcases hfirst with ⟨hus, hu⟩ | hfloat
      · exact Or.inl ⟨hus, congrArg (c :: ·) hu⟩
      · exact Or.inr (hfloat.trans (List.suffix_cons c u))

/-- A word of a type is mended to words of a type. -/
theorem exists_mend_word {w : Text} (hw : TypeWord w) :
    ∃ u us, mend w = Text.joined (u :: us) ∧ ∀ v ∈ u :: us, TypeWord v := by
  obtain ⟨u, us, heq, hsolid, hfirst, hstars⟩ := exists_mend_solid hw.2.1
  refine ⟨u, us, heq, fun v hv => ?_⟩
  have hv' := hsolid v hv
  rcases List.mem_cons.mp hv with rfl | hv
  · rcases hfirst with ⟨-, rfl⟩ | hfloat
    · exact hw
    · exact typeWord_of_isSuffix hv' hfloat
  · exact typeWord_of_mem hv' (hstars v hv)

/-- Joined words are mended word by word. -/
theorem exists_mend_joined {w : Text} {ws : List Text} (h : ∀ v ∈ w :: ws, TypeWord v) :
    ∃ u us, mend (Text.joined (w :: ws)) = Text.joined (u :: us) ∧
      ∀ v ∈ u :: us, TypeWord v := by
  induction ws generalizing w with
  | nil =>
    rw [Text.joined_singleton]
    exact exists_mend_word (h w (List.mem_cons_self ..))
  | cons v ws ih =>
    obtain ⟨u, us, hfirst, hus⟩ := exists_mend_word (h w (List.mem_cons_self ..))
    obtain ⟨x, xs, hrest, hxs⟩ := ih fun y hy => h y (List.mem_cons_of_mem w hy)
    refine ⟨u, us ++ x :: xs, ?_, fun y hy => ?_⟩
    · rw [Text.joined_cons_cons, mend_append_cons (by decide), hfirst, hrest, Text.joined_append,
        List.cons_append]
    · rw [← List.cons_append] at hy
      exact (List.mem_append.mp hy).elim (hus y) (hxs y)

/-- A type as it is written: words with single blanks between them, none of which precedes a
star. -/
structure NormalType (t : Text) : Prop where
  words : ∃ ws, (∀ w ∈ ws, TypeWord w) ∧ t = Text.joined ws
  tight : ¬ " *".toList <:+: t

/-- A star behind a word does not make it a qualifier. -/
theorem typeWord_append_stars {w stars : Text} (hw : Text.Solid w) (hstars : ∀ c ∈ stars, c = '*')
    (hne : stars ≠ []) : TypeWord (w ++ stars) := by
  obtain ⟨c, cs, rfl⟩ := List.exists_cons_of_ne_nil hne
  have hsolid : Text.Solid (c :: cs) := fun x hx => by
    rw [hstars x hx]
    decide
  refine typeWord_of_mem (hw.append hsolid) (List.mem_append_right w ?_)
  rw [hstars c (List.mem_cons_self ..)]
  exact List.mem_cons_self ..

/-- Stars behind joined words belong to the last of them. -/
theorem exists_joined_append {stars w : Text} {ws : List Text} (hstars : ∀ c ∈ stars, c = '*')
    (h : ∀ v ∈ w :: ws, TypeWord v) :
    ∃ u us, Text.joined (w :: ws) ++ stars = Text.joined (u :: us) ∧
      ∀ v ∈ u :: us, TypeWord v := by
  induction ws generalizing w with
  | nil =>
    have hw := h w (List.mem_cons_self ..)
    refine ⟨w ++ stars, [], by simp, fun v hv => ?_⟩
    rw [List.mem_singleton.mp hv]
    by_cases hne : stars = []
    · rw [hne, List.append_nil]
      exact hw
    · exact typeWord_append_stars hw.2.1 hstars hne
  | cons v ws ih =>
    obtain ⟨u, us, heq, hus⟩ := ih fun y hy => h y (List.mem_cons_of_mem w hy)
    refine ⟨w, u :: us, ?_, fun y hy => ?_⟩
    · rw [Text.joined_cons_cons, List.append_assoc, List.cons_append, heq, Text.joined_cons_cons]
    · rcases List.mem_cons.mp hy with rfl | hy
      · exact h y (List.mem_cons_self ..)
      · exact hus y hy

theorem NormalType.of_tighten {w : Text} {ws : List Text} (h : ∀ v ∈ w :: ws, TypeWord v) :
    NormalType (tighten (Text.joined (w :: ws))) := by
  obtain ⟨u, us, heq, -, hwords, hstars⟩ := exists_tighten_joined h
  rw [heq]
  exact ⟨⟨u :: us, hwords, rfl⟩, not_isInfix_joined hwords hstars⟩

/-- The type of an argument is in normal form. -/
theorem NormalType.typeOf {ws : List Text} {stars : Text}
    (hws : ∀ w ∈ ws, w ≠ [] ∧ Text.Solid w) (hstars : ∀ c ∈ stars, c = '*') :
    NormalType (typeOf ws stars) := by
  have hwords : ∀ w ∈ ws.filter (· ∉ qualifiers), TypeWord w := by
    intro w hw
    obtain ⟨hmem, hq⟩ := List.mem_filter.mp hw
    exact ⟨(hws w hmem).1, (hws w hmem).2, of_decide_eq_true hq⟩
  have htype : Declaration.typeOf ws stars =
      tighten (Text.joined (ws.filter (· ∉ qualifiers)) ++ stars) := rfl
  rw [htype]
  cases hfilter : ws.filter (· ∉ qualifiers) with
  | cons v vs =>
    rw [hfilter] at hwords
    obtain ⟨u, us, heq, hus⟩ := exists_joined_append hstars hwords
    rw [heq]
    exact .of_tighten hus
  | nil =>
    rw [Text.joined_nil, List.nil_append]
    by_cases hne : stars = []
    · rw [hne]
      exact ⟨⟨[], by simp, rfl⟩, by decide⟩
    · have hstar : TypeWord stars := typeWord_append_stars (w := []) (by decide) hstars hne
      rw [← Text.joined_singleton stars]
      exact .of_tighten (by simpa using hstar)

/-- The only white space in a type are blanks. -/
theorem NormalType.not_mem {t : Text} (h : NormalType t) {c : Char} (hc : Text.isSpace c = true)
    (hne : c ≠ ' ') : c ∉ t := by
  intro hmem
  obtain ⟨ws, hws, rfl⟩ := h.words
  rcases Text.mem_intercalate hmem with he | ⟨w, hw, hcw⟩
  · exact hne (List.mem_singleton.mp he)
  · exact (hws w hw).2.1.not_mem hc hcw

/-- A type in normal form is read as it is, mended or not. -/
theorem NormalType.typeOf_words_mend {t : Text} (h : NormalType t) :
    Declaration.typeOf (Text.words (mend t)) [] = t := by
  obtain ⟨us, heq, hus⟩ : ∃ us, mend t = Text.joined us ∧ ∀ u ∈ us, TypeWord u := by
    obtain ⟨ws, hws, rfl⟩ := h.words
    cases ws with
    | nil => exact ⟨[], rfl, by simp⟩
    | cons w ws =>
      obtain ⟨u, us, heq, hus⟩ := exists_mend_joined hws
      exact ⟨u :: us, heq, hus⟩
  have hwords : Text.words (mend t) = us := by
    rw [heq, Text.words_joined fun u hu => ⟨(hus u hu).1, (hus u hu).2.1⟩]
  have hfilter : us.filter (· ∉ qualifiers) = us :=
    List.filter_eq_self.mpr fun u hu => decide_eq_true (hus u hu).2.2
  calc Declaration.typeOf (Text.words (mend t)) []
      = tighten (Text.joined (us.filter (· ∉ qualifiers)) ++ []) := by rw [hwords]; rfl
    _ = tighten (mend t) := by rw [hfilter, List.append_nil, heq]
    _ = t := tighten_mend h.tight

end HeaderCards.Declaration
