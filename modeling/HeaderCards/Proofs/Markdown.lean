import HeaderCards.Catalog.ForeignBlock

/-!
# Reading escaped text

A text in which backslashes escape is read from left to right as a row of signs: a backslash makes
one sign with the character behind it, and any other character is a sign by itself. The signs of
an escaped text are the characters of the text it stands for, of which the markup, and nothing
else, is escaped. No backslash is left over at the end, so that the signs of texts put together
are the signs of the one followed by the signs of the other.
-/

namespace HeaderCards

namespace Markdown

/-- The characters that could begin markup or a link. -/
def markup : List Char := ['\\', '[', ']', '*', '_', '\x60', '<', '>']

theorem isMarkup_iff {c : Char} : isMarkup c = true ↔ c ∈ markup := by simp [isMarkup, markup]

theorem ne_backslash_of_not_mem_markup {c : Char} (h : c ∉ markup) : c ≠ '\\' := by
  rintro rfl
  exact h (List.mem_cons_self ..)

/-- A character as it is read, and whether it is escaped. -/
structure Sign where
  char : Char
  isEscaped : Bool
  deriving DecidableEq, Repr

/-- The sign of a character of a text that has been escaped. -/
def signOf (c : Char) : Sign := ⟨c, c ∈ markup⟩

/-- The signs of a text, unless there is nothing behind its last backslash to be escaped. -/
def signs? : Text → Option (List Sign)
  | [] => some []
  | ['\\'] => none
  | '\\' :: c :: t => (signs? t).map (⟨c, true⟩ :: ·)
  | c :: t => (signs? t).map (⟨c, false⟩ :: ·)

theorem signs?_escaped (c : Char) (t : Text) :
    signs? ('\\' :: c :: t) = (signs? t).map (⟨c, true⟩ :: ·) := by
  rw [signs?]

theorem signs?_plain {c : Char} (h : c ≠ '\\') (t : Text) :
    signs? (c :: t) = (signs? t).map (⟨c, false⟩ :: ·) := by
  rw [signs?.eq_def]
  split <;> simp_all

/-- A text is read sign by sign. -/
theorem signs_induction {motive : Text → Prop} (nil : motive []) (lone : motive ['\\'])
    (escaped : ∀ c t, motive t → motive ('\\' :: c :: t))
    (plain : ∀ c t, c ≠ '\\' → motive t → motive (c :: t)) (t : Text) : motive t := by
  fun_induction signs? t with
  | case1 => exact nil
  | case2 => exact lone
  | case3 c t ih => exact escaped c t ih
  | case4 c t hlone hescape ih =>
    apply plain c t _ ih
    rintro rfl
    cases t with
    | nil => exact hlone rfl rfl
    | cons d t => exact hescape d t rfl rfl

/-- Behind a text whose signs can be told apart, the signs of another begin. -/
theorem signs?_append {a : Text} {ss : List Sign} (h : signs? a = some ss) (b : Text) :
    signs? (a ++ b) = (signs? b).map (ss ++ ·) := by
  induction a using signs_induction generalizing ss with
  | nil =>
    cases h
    simp
  | lone => contradiction
  | escaped c t ih =>
    rw [signs?_escaped] at h
    obtain ⟨rest, hrest, rfl⟩ := Option.map_eq_some_iff.mp h
    rw [List.cons_append, List.cons_append, signs?_escaped, ih hrest, Option.map_map]
    rfl
  | plain c t hc ih =>
    rw [signs?_plain hc] at h
    obtain ⟨rest, hrest, rfl⟩ := Option.map_eq_some_iff.mp h
    rw [List.cons_append, signs?_plain hc, ih hrest, Option.map_map]
    rfl

/-- A text that ends in any other character has no backslash left over. -/
theorem exists_signs?_concat (t : Text) {c : Char} (hc : c ≠ '\\') :
    ∃ ss, signs? (t ++ [c]) = some ss := by
  induction t using signs_induction with
  | nil => exact ⟨_, signs?_plain hc []⟩
  | lone => exact ⟨_, signs?_escaped c []⟩
  | escaped d t ih =>
    obtain ⟨ss, hss⟩ := ih
    exact ⟨_, (signs?_escaped d (t ++ [c])).trans (by rw [hss]; rfl)⟩
  | plain d t hd ih =>
    obtain ⟨ss, hss⟩ := ih
    exact ⟨_, (signs?_plain hd (t ++ [c])).trans (by rw [hss]; rfl)⟩

theorem unescape_plain {c : Char} (h : c ≠ '\\') (t : Text) :
    unescape (c :: t) = c :: unescape t := by
  rw [unescape.eq_def]
  split <;> simp_all

/-- A text stands for the characters of its signs. -/
theorem unescape_of_signs? {t : Text} {ss : List Sign} (h : signs? t = some ss) :
    unescape t = ss.map Sign.char := by
  induction t using signs_induction generalizing ss with
  | nil =>
    cases h
    rfl
  | lone => contradiction
  | escaped c t ih =>
    rw [signs?_escaped] at h
    obtain ⟨rest, hrest, rfl⟩ := Option.map_eq_some_iff.mp h
    rw [unescape, ih hrest, List.map_cons]
  | plain c t hc ih =>
    rw [signs?_plain hc] at h
    obtain ⟨rest, hrest, rfl⟩ := Option.map_eq_some_iff.mp h
    rw [unescape_plain hc, ih hrest, List.map_cons]

theorem escapeChar_of_mem_markup {c : Char} (h : c ∈ markup) : escapeChar c = ['\\', c] :=
  if_pos (isMarkup_iff.mpr h)

theorem escapeChar_of_not_mem_markup {c : Char} (h : c ∉ markup) : escapeChar c = [c] :=
  if_neg fun hc => h (isMarkup_iff.mp hc)

/-- An escaped character is read as one sign. -/
theorem signs?_escapeChar (c : Char) : signs? (escapeChar c) = some [signOf c] := by
  by_cases hc : c ∈ markup
  · rw [escapeChar_of_mem_markup hc, signs?_escaped]
    simp [signs?, signOf, hc]
  · rw [escapeChar_of_not_mem_markup hc, signs?_plain (ne_backslash_of_not_mem_markup hc)]
    simp [signs?, signOf, hc]

/-- The signs of an escaped text are its characters. -/
theorem signs?_escape (t : Text) : signs? (escape t) = some (t.map signOf) := by
  induction t with
  | nil => rfl
  | cons c t ih =>
    rw [escape_cons, signs?_append (signs?_escapeChar c), ih]
    rfl

/-- Reading an escaped text gives the text back. -/
theorem unescape_escape (t : Text) : unescape (escape t) = t := by
  rw [unescape_of_signs? (signs?_escape t), List.map_map]
  exact List.map_id t

/-- Wherever an escaped text is cut, a character behind a backslash that is left over in front of
the cut is markup, and any other markup is a backslash that escapes what follows. -/
theorem mem_markup_of_escape_eq {t front behind : Text} {c : Char}
    (h : escape t = front ++ c :: behind) :
    (signs? front = none → c ∈ markup) ∧
      (signs? front ≠ none → c ∈ markup → c = '\\' ∧ behind ≠ []) := by
  induction t generalizing front with
  | nil => simp at h
  | cons d t ih =>
    rw [escape_cons] at h
    by_cases hd : d ∈ markup
    · rw [escapeChar_of_mem_markup hd] at h
      -- The cut stands in front of the backslash, behind it, or behind what it escapes.
      match front with
      | [] =>
        obtain ⟨rfl, rfl⟩ := List.cons.inj h
        simp [signs?]
      | [a] =>
        obtain ⟨rfl, hrest⟩ := List.cons.inj h
        obtain ⟨rfl, -⟩ := List.cons.inj hrest
        simp [signs?, hd]
      | a :: b :: front =>
        obtain ⟨rfl, hrest⟩ := List.cons.inj h
        obtain ⟨rfl, hbehind⟩ := List.cons.inj hrest
        simpa only [signs?_escaped, ne_eq, Option.map_eq_none_iff] using ih hbehind
    · rw [escapeChar_of_not_mem_markup hd] at h
      match front with
      | [] =>
        obtain ⟨rfl, -⟩ := List.cons.inj h
        simp [signs?, hd]
      | a :: front =>
        obtain ⟨rfl, hrest⟩ := List.cons.inj h
        have hne := ne_backslash_of_not_mem_markup hd
        simpa only [signs?_plain hne, ne_eq, Option.map_eq_none_iff] using ih hrest

theorem escape_injective : Function.Injective escape :=
  Function.LeftInverse.injective unescape_escape

end Markdown

/-- What the first line of the item of an argument with a note says behind the name. -/
def Note.opening (n : Note) : Text :=
  n.direction.tag ++
    match n.lines with
    | [] => []
    | first :: _ => if first = [] then [] else " " ++ withPeriod first

/-- The direction and the first line of a note are escaped as one text. -/
theorem Note.head?_item (n : Note) (name : Text) :
    (n.item name).head? = some (itemHead name ++ Markdown.escape n.opening) := by
  have hspace : Markdown.escapeChar ' ' = [' '] := by decide
  rw [item, opening]
  cases n.lines with
  | nil => simp
  | cons first rest =>
    by_cases hfirst : first = []
    · simp [hfirst]
    · simp [hfirst, hspace]

/-- The signs of the first line of an item are those of its head and then the escaped text. -/
theorem Note.signs?_head?_item (n : Note) (name : Text) :
    ∃ front line, Markdown.signs? (itemHead name) = some front ∧ (n.item name).head? = some line ∧
      Markdown.signs? line = some (front ++ n.opening.map Markdown.signOf) := by
  obtain ⟨init, hinit⟩ : ∃ init, itemHead name = init ++ [' '] :=
    ⟨"* `" ++ name ++ "` -", by simp [itemHead]⟩
  obtain ⟨front, hfront⟩ := Markdown.exists_signs?_concat init (c := ' ') (by decide)
  rw [← hinit] at hfront
  refine ⟨front, _, hfront, n.head?_item name, ?_⟩
  rw [Markdown.signs?_append hfront, Markdown.signs?_escape]
  rfl

/-- Escaping loses nothing, and it escapes markup and nothing else. Reading an escaped text gives
the text back, and its signs are the characters of the text, of which the markup is escaped.
Wherever it is cut, the character behind the cut is markup if it is escaped, and a backslash in
front of an escaped character if it is markup and not escaped. Different texts are escaped
differently. Texts put together are escaped one by one, and whatever stands behind an escaped text
is read as if it stood alone. So the first line of the item of an argument is read as its head, and
then as the direction and the first line of the note. -/
theorem Markdown.escape_by_signs :
    (∀ t, unescape (escape t) = t ∧ signs? (escape t) = some (t.map signOf)) ∧
    (∀ t front c behind, escape t = front ++ c :: behind →
      (signs? front = none → c ∈ markup) ∧
        (signs? front ≠ none → c ∈ markup → c = '\\' ∧ behind ≠ [])) ∧
    Function.Injective escape ∧
    (∀ a b, escape (a ++ b) = escape a ++ escape b) ∧
    (∀ a b, signs? (escape a ++ b) = (signs? b).map (a.map signOf ++ ·)) ∧
    ∀ (n : Note) (name : Text), ∃ front line, signs? (itemHead name) = some front ∧
      (n.item name).head? = some line ∧ signs? line = some (front ++ n.opening.map signOf) := by
  refine ⟨fun t => ⟨unescape_escape t, signs?_escape t⟩, ?_, escape_injective, escape_append, ?_,
    Note.signs?_head?_item⟩
  · intro t front c behind h
    exact mem_markup_of_escape_eq h
  · intro a b
    exact signs?_append (signs?_escape a) b

/-- A text with a run of backslashes in front of markup, and one at its end. -/
def slashedText : Text := ['\\', '\\', '_', 'x', '\\']

/-- In the escaped text the underscore stands behind five backslashes, of which the last one is
left over to escape it. -/
theorem Markdown.escape_slashedText :
    escape slashedText = List.replicate 5 '\\' ++ '_' :: ['x', '\\', '\\'] ∧
    signs? (List.replicate 5 '\\') = none ∧ '_' ∈ markup ∧
    unescape (List.replicate 5 '\\' ++ '_' :: ['x', '\\', '\\']) = slashedText := by
  have hescape : escape slashedText = List.replicate 5 '\\' ++ '_' :: ['x', '\\', '\\'] := by
    decide
  have hleft : signs? (List.replicate 5 '\\') = none := by decide
  obtain ⟨hread, hcut, -⟩ := escape_by_signs
  refine ⟨hescape, hleft, (hcut slashedText _ '_' _ hescape).1 hleft, ?_⟩
  rw [← hescape]
  exact (hread slashedText).1

end HeaderCards
