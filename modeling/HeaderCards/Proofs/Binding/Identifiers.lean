import HeaderCards.Catalog.ForeignBlock
import HeaderCards.Proofs.Binding.Bare
import Mathlib.Data.List.Nodup

/-!
# Identifiers of parameters

A parameter is declared under its own name, unless that is a word of the language. Such a word is
either made a raw identifier or given an underscore at its end, and what comes of it is no word of
the language. It can be the name of another parameter, though, and then the two are declared under
one identifier. This is the only way in which parameters of different names come to share one.
-/

namespace HeaderCards

variable {a b name : Text}

/-- The words of Rust with a meaning of their own, in its edition of 2021. -/
def strictWords : List Text :=
  ["as", "async", "await", "break", "const", "continue", "crate", "dyn", "else", "enum", "extern",
   "false", "fn", "for", "if", "impl", "in", "let", "loop", "match", "mod", "move", "mut", "pub",
   "ref", "return", "self", "Self", "static", "struct", "super", "trait", "true", "type",
   "unsafe", "use", "where", "while"].map String.toList

/-- The words that this edition keeps for a later use. -/
def futureWords : List Text :=
  ["abstract", "become", "box", "do", "final", "macro", "override", "priv", "try", "typeof",
   "unsized", "virtual", "yield"].map String.toList

/-- The text is a word of the language. -/
def IsLanguageWord (t : Text) : Prop := t ∈ strictWords ∨ t ∈ futureWords

instance (t : Text) : Decidable (IsLanguageWord t) := inferInstanceAs (Decidable (_ ∨ _))

/-- Every word of the language has a rule. -/
theorem isLanguageWord_iff : IsLanguageWord name ↔ name ∈ keywords ∨ name ∈ reserved := by
  have hrule : ∀ w ∈ strictWords ++ futureWords, w ∈ keywords ++ reserved := by decide +kernel
  have hword : ∀ w ∈ keywords ++ reserved, w ∈ strictWords ++ futureWords := by decide +kernel
  rw [IsLanguageWord, ← List.mem_append, ← List.mem_append]
  exact ⟨hrule name, hword name⟩

/-- No word of the language has one of the marks in it that renaming adds. -/
theorem IsLanguageWord.unmarked (h : IsLanguageWord name) : '#' ∉ name ∧ '_' ∉ name := by
  have hall : ∀ w ∈ strictWords ++ futureWords, '#' ∉ w ∧ '_' ∉ w := by decide +kernel
  exact hall name (List.mem_append.mpr h)

/-- A word of the language, and what a parameter of that name is called instead. -/
inductive Renamed : Text → Text → Prop
  | raw {w : Text} (h : w ∈ keywords) : Renamed w ("r#" ++ w)
  | suffixed {w : Text} (h : w ∈ reserved) : Renamed w (w ++ "_")

/-- What a word is renamed to is no word. -/
theorem Renamed.not_isLanguageWord (h : Renamed a b) : ¬ IsLanguageWord b := by
  intro hword
  obtain ⟨hsharp, hunderscore⟩ := hword.unmarked
  cases h with
  | raw _ => exact hsharp (by simp)
  | suffixed _ => exact hunderscore (by simp)

/-- A name that is no word of the language is kept. -/
theorem identifier_of_not_isLanguageWord (h : ¬ IsLanguageWord name) : identifier name = name := by
  rw [isLanguageWord_iff, not_or] at h
  rw [identifier, if_neg h.2, if_neg h.1]

/-- A word of the language is renamed by its one rule. -/
theorem renamed_iff : Renamed a b ↔ IsLanguageWord a ∧ identifier a = b := by
  have hone : ∀ w ∈ keywords, w ∉ reserved := by decide +kernel
  rw [isLanguageWord_iff, identifier]
  constructor
  · intro h
    cases h with
    | raw h => exact ⟨Or.inl h, by rw [if_neg (hone a h), if_pos h]⟩
    | suffixed h => exact ⟨Or.inr h, if_pos h⟩
  · rintro ⟨hword, rfl⟩
    split
    · next h => exact .suffixed h
    · next h =>
      have hkeyword := hword.resolve_right h
      rw [if_pos hkeyword]
      exact .raw hkeyword

/-- No word of the language is left as an identifier. -/
theorem not_isLanguageWord_identifier (name : Text) : ¬ IsLanguageWord (identifier name) := by
  by_cases h : IsLanguageWord name
  · exact (renamed_iff.mpr ⟨h, rfl⟩).not_isLanguageWord
  · rwa [identifier_of_not_isLanguageWord h]

/-- A raw identifier is no word with an underscore at its end. -/
theorem raw_ne_suffixed (hb : b ∈ reserved) : ("r#" : Text) ++ a ≠ b ++ "_" := by
  intro h
  have hsharp : '#' ∈ ("r#" : Text) ++ a := by simp
  rw [h] at hsharp
  rcases List.mem_append.mp hsharp with hword | hmark
  · exact (isLanguageWord_iff.mpr (Or.inr hb)).unmarked.1 hword
  · exact absurd hmark (by decide)

/-- Different words are renamed apart. -/
theorem Renamed.inj {c : Text} (ha : Renamed a c) (hb : Renamed b c) : a = b := by
  generalize hc : c = d at hb
  cases ha with
  | raw _ =>
    cases hb with
    | raw _ => exact List.append_cancel_left hc
    | suffixed hb => exact absurd hc (raw_ne_suffixed hb)
  | suffixed ha =>
    cases hb with
    | raw _ => exact absurd hc.symm (raw_ne_suffixed ha)
    | suffixed _ => exact List.append_cancel_right hc

/-- Two names have the same identifier when they are the same or one of them is what the other is
renamed to. -/
theorem identifier_eq_iff :
    identifier a = identifier b ↔ a = b ∨ Renamed a b ∨ Renamed b a := by
  constructor
  · intro h
    by_cases ha : IsLanguageWord a
    · by_cases hb : IsLanguageWord b
      · exact Or.inl ((renamed_iff.mpr ⟨ha, h⟩).inj (renamed_iff.mpr ⟨hb, rfl⟩))
      · rw [identifier_of_not_isLanguageWord hb] at h
        exact Or.inr (Or.inl (renamed_iff.mpr ⟨ha, h⟩))
    · rw [identifier_of_not_isLanguageWord ha] at h
      by_cases hb : IsLanguageWord b
      · exact Or.inr (Or.inr (renamed_iff.mpr ⟨hb, h.symm⟩))
      · exact Or.inl (h.trans (identifier_of_not_isLanguageWord hb))
  · have hkept {a b : Text} (h : Renamed a b) : identifier a = identifier b := by
      rw [(renamed_iff.mp h).2, identifier_of_not_isLanguageWord h.not_isLanguageWord]
    rintro (rfl | h | h)
    · rfl
    · exact hkept h
    · exact (hkept h).symm

/-- Different names have different identifiers unless one is what another is renamed to. -/
theorem nodup_map_identifier_iff {names : List Text} (h : names.Nodup) :
    (names.map identifier).Nodup ↔ ∀ a ∈ names, ∀ b ∈ names, ¬ Renamed a b := by
  rw [List.nodup_map_iff_inj_on h]
  constructor
  · intro hinj a ha b hb hrenamed
    obtain rfl := hinj a ha b hb (identifier_eq_iff.mpr (Or.inr (Or.inl hrenamed)))
    exact hrenamed.not_isLanguageWord (renamed_iff.mp hrenamed).1
  · intro hrenamed a ha b hb he
    rcases identifier_eq_iff.mp he with he | he | he
    · exact he
    · exact absurd he (hrenamed a ha b hb)
    · exact absurd he (hrenamed b hb a ha)

/-- Names without the mark of raw identifiers have different identifiers unless one of them is
another one with an underscore at its end, and this other one can be no raw identifier. -/
theorem nodup_map_identifier_iff_of_unmarked {names : List Text} (h : names.Nodup)
    (hmark : ∀ a ∈ names, '#' ∉ a) :
    (names.map identifier).Nodup ↔ ∀ w ∈ reserved, w ∈ names → w ++ "_" ∉ names := by
  rw [nodup_map_identifier_iff h]
  constructor
  · intro hrenamed w hw hmem hmem'
    exact hrenamed w hmem _ hmem' (.suffixed hw)
  · intro hreserved a ha b hb hrenamed
    cases hrenamed with
    | raw _ => exact hmark _ hb (by simp)
    | suffixed hw => exact hreserved a hw ha hb

/-- The identifiers of the parameters of a function. -/
def Prototype.identifiers (p : Prototype) : List Text := p.arguments.map (identifier ·.name)

theorem Prototype.identifiers_eq (p : Prototype) :
    p.identifiers = (p.arguments.map (·.name)).map identifier := by
  rw [identifiers, List.map_map]
  rfl

/-- The line declares a parameter under the identifier. -/
def DeclaresParameter (identifier line : Text) : Prop :=
  ∃ type : Text, line = "        " ++ identifier ++ ": " ++ type ++ ","

/-- The declaration of a bound prototype has a line for each of its identifiers, in order. -/
theorem Prototype.declaration_of_bind {p : Prototype} {f : Family} {d : Description} {b : Binding}
    (h : p.bind f d = .ok b) : ∃ parameters : List Text,
      b.declaration =
        ("    pub fn " ++ p.name ++ "(") :: (parameters ++ [Binding.resultLine b.result]) ∧
      List.Forall₂ DeclaresParameter p.identifiers parameters := by
  obtain ⟨-, hprototype, -, hpairs⟩ := Prototype.of_bind h
  have harguments : b.arguments.map (·.argument) = p.arguments := by
    rw [← p.map_argument_pair f d, ← hpairs, List.map_map]
    rfl
  refine ⟨b.arguments.map Binding.parameterLine, by rw [Binding.declaration, hprototype], ?_⟩
  rw [identifiers, ← harguments, List.map_map, List.forall₂_map_left_iff,
    List.forall₂_map_right_iff, List.forall₂_same]
  exact fun a _ => ⟨a.type.name, rfl⟩

/-- The parameters of a function are declared in order, each under the identifier of its name, and
none under a word of the language. Two names have the same identifier only when they are the same
or one of them is what the other, a word of the language, is renamed to. So parameters of different
names are declared under different identifiers exactly when no name is what another one is renamed
to; without the mark of raw identifiers in any name, exactly when none is a reserved word that
another one continues by an underscore. -/
theorem Prototype.identifiers_by_renaming (p : Prototype) :
    (∀ (f : Family) (d : Description) (b : Binding), p.bind f d = .ok b →
      ∃ parameters : List Text,
        b.declaration =
          ("    pub fn " ++ p.name ++ "(") :: (parameters ++ [Binding.resultLine b.result]) ∧
        List.Forall₂ DeclaresParameter p.identifiers parameters) ∧
    (∀ i ∈ p.identifiers, ¬ IsLanguageWord i) ∧
    (∀ a ∈ p.arguments, ∀ b ∈ p.arguments, identifier a.name = identifier b.name ↔
      a.name = b.name ∨ Renamed a.name b.name ∨ Renamed b.name a.name) ∧
    ((p.arguments.map (·.name)).Nodup →
      (p.identifiers.Nodup ↔
        ∀ a ∈ p.arguments, ∀ b ∈ p.arguments, ¬ Renamed a.name b.name) ∧
      ((∀ a ∈ p.arguments, '#' ∉ a.name) →
        (p.identifiers.Nodup ↔ ∀ w ∈ reserved, w ∈ p.arguments.map (·.name) →
          w ++ "_" ∉ p.arguments.map (·.name)))) := by
  refine ⟨fun f d b => declaration_of_bind, ?_, fun a _ b _ => identifier_eq_iff,
    fun hnames => ⟨?_, fun hmark => ?_⟩⟩
  · exact List.forall_mem_map.mpr fun a _ => not_isLanguageWord_identifier a.name
  · rw [identifiers_eq, nodup_map_identifier_iff hnames, List.forall_mem_map]
    exact forall₂_congr fun a _ => List.forall_mem_map
  · rw [identifiers_eq]
    exact nodup_map_identifier_iff_of_unmarked hnames (List.forall_mem_map.mpr hmark)

/-- A function with two parameters that are named by words of the language. -/
def wordyPrototype : Prototype :=
  ⟨"cblas_f", "void", [⟨"int", "self"⟩, ⟨"int", "type"⟩, ⟨"int", "self__"⟩]⟩

/-- Both are renamed, by the one rule and by the other, and all three are declared apart. -/
theorem Prototype.identifiers_wordyPrototype :
    (wordyPrototype.arguments.map (·.name)).Nodup ∧
    wordyPrototype.identifiers = ["self_".toList, "r#type".toList, "self__".toList] ∧
    wordyPrototype.identifiers.Nodup ∧
    ∃ b, wordyPrototype.bind .blas ∅ = .ok b ∧ ∃ parameters : List Text,
      b.declaration = "    pub fn cblas_f(".toList ::
        (parameters ++ [Binding.resultLine b.result]) ∧
      List.Forall₂ DeclaresParameter wordyPrototype.identifiers parameters := by
  obtain ⟨hdeclared, -, -, hdistinct⟩ := identifiers_by_renaming wordyPrototype
  have hnames : (wordyPrototype.arguments.map (·.name)).Nodup := by decide +kernel
  refine ⟨hnames, by decide +kernel, ?_, ?_⟩
  · exact ((hdistinct hnames).2 (by decide +kernel)).mpr (by decide +kernel)
  · obtain ⟨b, hb⟩ : ∃ b, wordyPrototype.bind .blas ∅ = .ok b := ⟨_, rfl⟩
    obtain ⟨parameters, hlines, hparameters⟩ := hdeclared _ _ b hb
    exact ⟨b, hb, parameters, hlines, hparameters⟩

/-- A function with a parameter named like a word of the language and another one named like what
this word is renamed to. -/
def collidingPrototype : Prototype := ⟨"cblas_f", "void", [⟨"int", "self"⟩, ⟨"int", "self_"⟩]⟩

/-- The two parameters have different names and are declared under one identifier. -/
theorem Prototype.identifiers_collidingPrototype :
    (collidingPrototype.arguments.map (·.name)).Nodup ∧
    ¬ collidingPrototype.identifiers.Nodup ∧
    (collidingPrototype.bind .blas ∅).map Binding.declaration =
      .ok ["    pub fn cblas_f(".toList, "        self_: i32,".toList,
        "        self_: i32,".toList, "    );".toList] := by
  decide +kernel

end HeaderCards
