import HeaderCards.Card.Dialect
import HeaderCards.Proofs.Text.Space

/-!
# The shapes of wrapped lines

A wrapped line has one of four shapes, told by what it reads when the white space at its end is
taken away. The shapes overlap in their openings and closings, but no text has two of them. A
line is decoded when it has a shape, and to what that shape says.
-/

namespace HeaderCards

namespace Text

variable {a b t x : Text}

/-- Dropping a start and then an end finds what stands between them. -/
theorem dropStart?_bind_dropEnd?_eq_some_iff :
    (dropStart? a t).bind (dropEnd? b) = some x ↔ t = a ++ x ++ b := by
  rw [Option.bind_eq_some_iff]
  constructor
  · rintro ⟨rest, hstart, hend⟩
    rw [dropStart?_eq_some_iff.mp hstart, dropEnd?_eq_some_iff.mp hend, List.append_assoc]
  · rintro rfl
    exact ⟨x ++ b, dropStart?_eq_some_iff.mpr (List.append_assoc ..), dropEnd?_eq_some_iff.mpr rfl⟩

/-- Spaces around a text belong to what is around them. -/
theorem append_between (a v x w b : Text) :
    a ++ (v ++ x ++ w) ++ b = (a ++ v) ++ x ++ (w ++ b) := by
  simp only [List.append_assoc]

/-- A text does not begin with one opening when it begins with another one of the same length. -/
theorem not_isPrefix_append (hlength : a.length = b.length) (hne : a ≠ b) (t : Text) :
    ¬ a <+: b ++ t := by
  intro h
  have hshort : a <+: b :=
    List.prefix_of_prefix_length_le h (List.prefix_append b t) hlength.le
  exact hne (hshort.eq_of_length hlength)

end Text

namespace CardLine

variable {c c' : CardLine} {line t w : Text}

/-- The shapes of a text, and what each of them says. -/
inductive Shape : Text → CardLine → Prop
  /-- Nothing at all. -/
  | blank : Shape [] blank
  /-- The opening of a card line with the closing of a comment. -/
  | emptyDoc : Shape "/* > */" emptyDoc
  /-- A card line with its text, between single spaces that are not part of it. -/
  | doc (x : Text) : Shape ("/* > " ++ x ++ " */") (doc x)
  /-- A comment that does not begin like a card line, with its text trimmed. -/
  | comment (y : Text) (h : ¬ ("/* >" : Text) <+: "/*" ++ y ++ "*/") :
      Shape ("/*" ++ y ++ "*/") (comment (Text.trim y))

/-- What is decoded has a shape. -/
theorem shape_of_decode? (h : decode? line = some c) : Shape (Text.trimEnd line) c := by
  rw [decode?] at h
  generalize Text.trimEnd line = t at h ⊢
  split at h
  · next ht =>
    cases h
    exact ht ▸ .blank
  · split at h
    · next ht =>
      cases h
      exact ht ▸ .emptyDoc
    · split at h
      · next x hx =>
        cases h
        exact Text.dropStart?_bind_dropEnd?_eq_some_iff.mp hx ▸ .doc x
      · split at h
        · contradiction
        · next hstart =>
          obtain ⟨y, hy, rfl⟩ := Option.map_eq_some_iff.mp h
          rw [Text.dropStart?_bind_dropEnd?_eq_some_iff] at hy
          rw [Text.startsWith_iff, hy] at hstart
          exact hy ▸ .comment y hstart

/-- What has a shape is decoded to what the shape says. -/
theorem decode?_of_shape (h : Shape (Text.trimEnd line) c) : decode? line = some c := by
  rw [decode?]
  generalize Text.trimEnd line = t at h ⊢
  cases h with
  | blank => exact if_pos rfl
  | emptyDoc =>
    have hne : ("/* > */" : Text) ≠ [] := by decide
    exact (if_neg hne).trans (if_pos rfl)
  | doc x =>
    have hlength : ("/* > " ++ x ++ " */" : Text).length = 5 + x.length + 3 := by
      rw [List.length_append, List.length_append]
      rfl
    have hnil : ("/* > " ++ x ++ " */" : Text) ≠ [] := by
      intro he
      rw [he, List.length_nil] at hlength
      omega
    -- the shortest text of this shape is longer by one space
    have hempty : ("/* > " ++ x ++ " */" : Text) ≠ "/* > */" := by
      intro he
      have hseven : ("/* > */" : Text).length = 7 := rfl
      rw [he, hseven] at hlength
      omega
    have hdoc : (Text.dropStart? "/* > " ("/* > " ++ x ++ " */")).bind (Text.dropEnd? " */") =
        some x := Text.dropStart?_bind_dropEnd?_eq_some_iff.mpr rfl
    simp only [if_neg hnil, if_neg hempty, hdoc]
  | comment y hy =>
    have hnil : ("/*" ++ y ++ "*/" : Text) ≠ [] := by
      rw [List.append_assoc]
      exact List.cons_ne_nil _ _
    have hempty : ("/*" ++ y ++ "*/" : Text) ≠ "/* > */" := fun he => hy (he ▸ ⟨" */", rfl⟩)
    have hdoc : (Text.dropStart? "/* > " ("/*" ++ y ++ "*/")).bind (Text.dropEnd? " */") =
        none := by
      rw [Option.eq_none_iff_forall_ne_some]
      intro x hx
      refine hy ?_
      rw [Text.dropStart?_bind_dropEnd?_eq_some_iff.mp hx, List.append_assoc]
      exact ⟨" " ++ (x ++ " */"), rfl⟩
    have hstart : Text.startsWith ("/*" ++ y ++ "*/") "/* >" = false := by
      rwa [← Bool.not_eq_true, Text.startsWith_iff]
    have hcomment : (Text.dropStart? "/*" ("/*" ++ y ++ "*/")).bind (Text.dropEnd? "*/") = some y :=
      Text.dropStart?_bind_dropEnd?_eq_some_iff.mpr rfl
    simp only [if_neg hnil, if_neg hempty, hdoc, hstart, hcomment]
    rfl

/-- A line is decoded to what its shape says. -/
theorem decode?_eq_some_iff : decode? line = some c ↔ Shape (Text.trimEnd line) c :=
  ⟨shape_of_decode?, decode?_of_shape⟩

/-- A line without a shape is not decoded. -/
theorem decode?_eq_none_iff : decode? line = none ↔ ∀ c, ¬ Shape (Text.trimEnd line) c := by
  rw [Option.eq_none_iff_forall_ne_some]
  exact forall_congr' fun c => not_congr decode?_eq_some_iff

/-- What a shape says stands in the text of that shape. -/
theorem Shape.text_isInfix (h : Shape t c) : c.text <:+: t := by
  cases h with
  | blank => exact List.nil_infix
  | emptyDoc => exact List.nil_infix
  | doc x => exact ⟨_, _, rfl⟩
  | comment y h => exact (Text.trim_isInfix y).trans ⟨_, _, rfl⟩

/-- A text with a shape is empty or ends in the slash of a closing, and so in no white space. -/
theorem Shape.trimEnd_eq (h : Shape t c) : Text.trimEnd t = t := by
  have hslash (s : Text) : Text.trimEnd (s ++ ['/']) = s ++ ['/'] :=
    Text.trimEnd_append_of_visible (by decide) s
  cases h with
  | blank => rfl
  | emptyDoc => exact hslash "/* > *"
  | doc x => simpa using hslash ("/* > " ++ x ++ " *")
  | comment y h => simpa using hslash ("/*" ++ y ++ "*")

/-- No text has two shapes. -/
theorem Shape.unique (h : Shape t c) (h' : Shape t c') : c = c' := by
  rw [← h.trimEnd_eq, ← decode?_eq_some_iff] at h
  rw [← h'.trimEnd_eq, ← decode?_eq_some_iff] at h'
  exact Option.some.inj (h.symm.trans h')

/-- The shape can be written and read back: the text of a comment has no white space at its ends.
Any other text can be written as it is. -/
def Writable : CardLine → Prop
  | comment x => Text.trim x = x
  | _ => True

instance : (c : CardLine) → Decidable c.Writable
  | blank | emptyDoc | doc _ => isTrue trivial
  | comment x => inferInstanceAs (Decidable (Text.trim x = x))

/-- What is read can be written. -/
theorem Shape.writable (h : Shape t c) : c.Writable := by
  cases h with
  | comment y h => exact Text.trim_trim y
  | _ => trivial

/-- The written form of a shape has the shape. -/
theorem Writable.shape (h : c.Writable) : Shape c.write c := by
  cases c with
  | blank => exact .blank
  | emptyDoc => exact .emptyDoc
  | doc x => exact .doc x
  | comment x =>
    have hwrite : (comment x).write = "/*" ++ ("  " ++ x ++ " ") ++ "*/" :=
      (Text.append_between "/*" "  " x " " "*/").symm
    have hopening : (comment x).write = "/*  " ++ (x ++ " */") := List.append_assoc ..
    have hstart : ¬ ("/* >" : Text) <+: "/*  " ++ (x ++ " */") :=
      Text.not_isPrefix_append (a := "/* >") (b := "/*  ") rfl (by decide) _
    rw [← hopening] at hstart
    have htrim : Text.trim ("  " ++ x ++ " ") = x := by
      rw [Text.trim_append_blank (by decide), Text.trim, Text.trimStart_blank_append (by decide)]
      exact h
    rw [hwrite] at hstart ⊢
    have hshape := Shape.comment _ hstart
    rwa [htrim] at hshape

/-- The written form of a shape is decoded to it, whatever white space stands behind it. -/
theorem decode?_write_append (h : c.Writable) (hw : Text.isBlank w = true) :
    decode? (c.write ++ w) = some c := by
  rw [decode?_eq_some_iff, Text.trimEnd_append_blank hw, h.shape.trimEnd_eq]
  exact h.shape

end CardLine

namespace Dialect

variable {e : CardError} {line x : Text} {number : Nat}

/-- A wrapped line without a shape is quoted as it is, with its number. -/
theorem strip_f2c_eq_error_iff : f2c.strip number line = .error e ↔
    (∀ c, ¬ CardLine.Shape (Text.trimEnd line) c) ∧ e = .undecodableLine number line := by
  rw [← CardLine.decode?_eq_none_iff, strip]
  cases CardLine.decode? line <;> simp [eq_comm]

/-- A wrapped line with a shape is stripped to what the shape says. -/
theorem strip_f2c_eq_ok_iff : f2c.strip number line = .ok x ↔
    ∃ c, CardLine.Shape (Text.trimEnd line) c ∧ c.text = x := by
  simp only [← CardLine.decode?_eq_some_iff, strip]
  cases CardLine.decode? line <;> simp

end Dialect

/-- A wrapped line is decoded by the shape of what is left of it without the white space at its
end, and no text has two shapes. A line without a shape is refused with its number and quoted as it
is; any other one is stripped to what its shape says. Each shape is reached from its written form,
whatever white space stands behind it: a card line whatever its text is, and a comment whose text
is trimmed, as all texts of comments are. -/
theorem CardLine.decode?_by_shape :
    (∀ line c, decode? line = some c ↔ Shape (Text.trimEnd line) c) ∧
    (∀ t c c', Shape t c → Shape t c' → c = c') ∧
    (∀ number line e, Dialect.f2c.strip number line = .error e ↔
      (∀ c, ¬ Shape (Text.trimEnd line) c) ∧ e = .undecodableLine number line) ∧
    (∀ number line x, Dialect.f2c.strip number line = .ok x ↔
      ∃ c, Shape (Text.trimEnd line) c ∧ c.text = x) ∧
    (∀ (c : CardLine) (w : Text), c.Writable → Text.isBlank w = true →
      decode? (c.write ++ w) = some c) ∧
    ∀ line c, decode? line = some c → c.Writable :=
  ⟨fun _ _ => decode?_eq_some_iff, fun _ _ _ => Shape.unique,
    fun _ _ _ => Dialect.strip_f2c_eq_error_iff, fun _ _ _ => Dialect.strip_f2c_eq_ok_iff,
    fun _ _ => decode?_write_append, fun _ _ h => (shape_of_decode? h).writable⟩

/-- A comment that closes twice carries the first closing in its text, a card line keeps the
spaces around its text, and a card line that is closed too early has no shape. -/
theorem CardLine.decode?_overlapping :
    decode? "/**/ */\t" = some (comment "*/") ∧
    decode? ((doc " a  */").write ++ "\u2003") = some (doc " a  */") ∧
    decode? ((comment "> a").write ++ " ") = some (comment "> a") ∧
    Dialect.f2c.strip 7 "/* >a */ " = .error (.undecodableLine 7 "/* >a */ ") := by
  obtain ⟨hshape, -, herror, -, hwritten, -⟩ := decode?_by_shape
  refine ⟨(hshape _ _).mpr ?_, hwritten (doc " a  */") _ trivial (by decide),
    hwritten (comment "> a") _ (by decide) (by decide), (herror _ _ _).mpr ⟨?_, rfl⟩⟩
  · exact .comment "*/ " (by decide)
  · intro c hc
    have hnone : decode? "/* >a */ " = none := by decide +kernel
    rw [(hshape _ c).mpr hc] at hnone
    contradiction

end HeaderCards
