import HeaderCards.Proofs.Binding.Bare

/-!
# Known types

A prototype has a binding when its family knows all of its C types. Then every argument has the
binding type that stands in the table beside its C type, but for the layout selector, and so has
the return value. Otherwise the binding fails at the first argument of an unknown type, and at
the return value only when no argument is to blame. Descriptions have no part in this.
-/

namespace HeaderCards

namespace Family

variable {f : Family} {a : Argument} {type function : Text} {b : BindingType} {e : UnknownType}

/-- The layout selector of the solvers, which is declared as a plain `int`. -/
def Selects (f : Family) (a : Argument) : Prop :=
  f = .lapack ∧ a.type = "int" ∧ a.name = "matrix_layout"

instance (f : Family) (a : Argument) : Decidable (f.Selects a) :=
  inferInstanceAs (Decidable (f = .lapack ∧ a.type = "int" ∧ a.name = "matrix_layout"))

/-- The binding type of an argument: the selector has a type of its own, and any other argument
has what stands beside its C type in the table. -/
inductive Types (f : Family) (a : Argument) : BindingType → Prop
  | selector (h : f.Selects a) : Types f a .matrixLayout
  | listed {b : BindingType} (h : ¬ f.Selects a) (hb : (a.type, b) ∈ f.argumentTypes) :
      Types f a b

/-- The C type of the argument is in the table, or the argument is the selector. -/
def Knows (f : Family) (a : Argument) : Prop :=
  a.type ∈ f.argumentTypes.map Prod.fst ∨ f.Selects a

/-- The C type is in the table of those that can be returned. -/
def KnowsResult (f : Family) (type : Text) : Prop := type ∈ f.returnTypes.map Prod.fst

instance (f : Family) (a : Argument) : Decidable (f.Knows a) :=
  inferInstanceAs (Decidable (_ ∨ _))

instance (f : Family) (type : Text) : Decidable (f.KnowsResult type) :=
  inferInstanceAs (Decidable (_ ∈ _))

/-- Every C type stands in a table once. -/
theorem nodup_argumentTypes (f : Family) : (f.argumentTypes.map Prod.fst).Nodup := by
  cases f <;> decide +kernel

theorem nodup_returnTypes (f : Family) : (f.returnTypes.map Prod.fst).Nodup := by
  cases f <;> decide +kernel

/-- In a table that has every key once, what is found is what stands beside the key. -/
theorem lookup_eq_some_iff_mem {α : Type} {table : List (Text × α)} {key : Text} {value : α}
    (h : (table.map Prod.fst).Nodup) : table.lookup key = some value ↔ (key, value) ∈ table := by
  rw [List.lookup_eq_some_iff]
  constructor
  · rintro ⟨before, after, rfl, -⟩
    exact List.mem_append_right before (List.mem_cons_self ..)
  · intro hmem
    obtain ⟨before, after, rfl⟩ := List.append_of_mem hmem
    refine ⟨before, after, rfl, fun p hp => bne_iff_ne.mpr ?_⟩
    rintro rfl
    rw [List.map_append, List.map_cons] at h
    exact (List.nodup_append.mp h).2.2 _ (List.mem_map_of_mem hp) _ (List.mem_cons_self ..) rfl

/-- Nothing is found under a key that is not in the table. -/
theorem lookup_eq_none_iff_not_mem {α : Type} {table : List (Text × α)} {key : Text} :
    table.lookup key = none ↔ key ∉ table.map Prod.fst := by
  simp only [List.lookup_eq_none_iff, List.mem_map, bne_iff_ne, not_exists, not_and]
  exact forall₂_congr fun p _ => ne_comm

/-- An argument has the binding type that is found for it. -/
theorem argumentType_eq_ok_iff : f.argumentType a = .ok b ↔ f.Types a b := by
  rw [argumentType]
  split
  · next h =>
    constructor
    · intro he
      cases he
      exact .selector h
    · rintro (- | ⟨hn, -⟩)
      · rfl
      · exact absurd h hn
  · next h =>
    constructor
    · intro he
      split at he
      · next found =>
        cases he
        exact .listed h ((lookup_eq_some_iff_mem f.nodup_argumentTypes).mp found)
      · contradiction
    · rintro (hs | ⟨-, hb⟩)
      · exact absurd hs h
      · rw [(lookup_eq_some_iff_mem f.nodup_argumentTypes).mpr hb]

/-- None is found for an argument of an unknown type, which is to blame. -/
theorem argumentType_eq_error_iff :
    f.argumentType a = .error e ↔ ¬ f.Knows a ∧ e = ⟨a.type, .argument a.name⟩ := by
  rw [argumentType, Knows, not_or, ← lookup_eq_none_iff_not_mem]
  split
  · next h =>
    have hs : f.Selects a := h
    simp [hs]
  · next h =>
    have hs : ¬ f.Selects a := h
    cases f.argumentTypes.lookup a.type <;> simp [hs, eq_comm]

/-- The return value has the binding type that is found for it. -/
theorem returnType_eq_ok_iff :
    f.returnType type function = .ok b ↔ (type, b) ∈ f.returnTypes := by
  rw [returnType, ← lookup_eq_some_iff_mem f.nodup_returnTypes]
  cases f.returnTypes.lookup type <;> simp

/-- None is found for a return value of an unknown type, which is to blame. -/
theorem returnType_eq_error_iff : f.returnType type function = .error e ↔
    ¬ f.KnowsResult type ∧ e = ⟨type, .result function⟩ := by
  rw [returnType, KnowsResult, ← lookup_eq_none_iff_not_mem]
  cases f.returnTypes.lookup type <;> simp [eq_comm]

/-- What can fail for one reason only has a value unless there is that reason. -/
theorem exists_eq_ok_iff {α : Type} {x : Except UnknownType α} {known : Prop} {cause : UnknownType}
    (h : ∀ e, x = .error e ↔ ¬ known ∧ e = cause) : (∃ b, x = .ok b) ↔ known := by
  cases x with
  | error e => simpa using ((h e).mp rfl).1
  | ok b => simpa using h cause

/-- An argument has a binding type when it is known. -/
theorem exists_argumentType_iff : (∃ b, f.argumentType a = .ok b) ↔ f.Knows a :=
  exists_eq_ok_iff fun _ => argumentType_eq_error_iff

/-- A return value has a binding type when it is known. -/
theorem exists_returnType_iff (function : Text) :
    (∃ b, f.returnType type function = .ok b) ↔ f.KnowsResult type :=
  exists_eq_ok_iff fun _ => returnType_eq_error_iff

end Family

/-- A paired argument is bound as it is, with its type. -/
theorem Pairing.bind_eq_ok_iff {f : Family} {q : Pairing} {c : BoundArgument} :
    q.bind f = .ok c ↔
      c.argument = q.argument ∧ c.note? = q.note? ∧ f.Types q.argument c.type := by
  rw [Pairing.bind, map_eq_ok_iff]
  constructor
  · rintro ⟨type, htype, rfl⟩
    exact ⟨rfl, rfl, Family.argumentType_eq_ok_iff.mp htype⟩
  · rintro ⟨hargument, hnote, htype⟩
    refine ⟨c.type, Family.argumentType_eq_ok_iff.mpr htype, ?_⟩
    obtain ⟨⟨a, note?⟩, type⟩ := c
    obtain ⟨a', note?'⟩ := q
    cases hargument
    cases hnote
    rfl

/-- A paired argument is bound when it is known. -/
theorem Pairing.exists_bind_iff {f : Family} {q : Pairing} :
    (∃ c, q.bind f = .ok c) ↔ f.Knows q.argument := by
  simp only [Pairing.bind, map_eq_ok_iff, ← Family.exists_argumentType_iff]
  simp

namespace Prototype

variable {p : Prototype} {f : Family} {d : Description}

/-- The family knows every C type in the prototype. -/
structure Known (p : Prototype) (f : Family) : Prop where
  arguments : ∀ a ∈ p.arguments, f.Knows a
  result : f.KnowsResult p.returnType

theorem known_iff_and :
    p.Known f ↔ (∀ a ∈ p.arguments, f.Knows a) ∧ f.KnowsResult p.returnType :=
  ⟨fun h => ⟨h.arguments, h.result⟩, fun h => ⟨h.1, h.2⟩⟩

instance (p : Prototype) (f : Family) : Decidable (p.Known f) :=
  decidable_of_iff _ known_iff_and.symm

/-- The first thing in the prototype whose C type is unknown, and the message about it. -/
inductive FirstUnknown (p : Prototype) (f : Family) : UnknownType → Text → Prop
  /-- An argument behind arguments of known types. -/
  | argument {before after : List Argument} {a : Argument} (h : p.arguments = before ++ a :: after)
      (hbefore : ∀ c ∈ before, f.Knows c) (ha : ¬ f.Knows a) :
      FirstUnknown p f ⟨a.type, .argument a.name⟩
        ("unknown type `" ++ a.type ++ "` for " ++ a.name)
  /-- The return value, where all arguments are of known types. -/
  | result (harguments : ∀ a ∈ p.arguments, f.Knows a) (h : ¬ f.KnowsResult p.returnType) :
      FirstUnknown p f ⟨p.returnType, .result p.name⟩
        ("unknown type `" ++ p.returnType ++ "` for " ++ ("return value of " ++ p.name))

/-- The binding of the prototype: an argument for each of its own, in order, with the note on it
and its type, and the type of the return value. -/
structure BoundTo (p : Prototype) (f : Family) (d : Description) (b : Binding) : Prop where
  family : b.family = f
  prototype : b.prototype = p
  description : b.description = d
  arguments : List.Forall₂ (fun a c => c.argument = a ∧ c.note? = f.noteFor? p.name d a.name ∧
    f.Types a c.type) p.arguments b.arguments
  result : (p.returnType, b.result) ∈ f.returnTypes

/-- The arguments are bound one by one, each of them as its type says. -/
theorem mapM_bind_eq_ok_iff {as : List BoundArgument} :
    (p.pair f d).mapM (Pairing.bind f) = .ok as ↔
      List.Forall₂ (fun a c => c.argument = a ∧ c.note? = f.noteFor? p.name d a.name ∧
        f.Types a c.type) p.arguments as := by
  rw [mapM_eq_ok_iff_forall₂, pair, List.forall₂_map_left_iff]
  constructor
  · exact List.Forall₂.imp fun _ _ => Pairing.bind_eq_ok_iff.mp
  · exact List.Forall₂.imp fun a _ =>
      (Pairing.bind_eq_ok_iff (q := ⟨a, f.noteFor? p.name d a.name⟩)).mpr

/-- A prototype is bound to what its types say. -/
theorem bind_eq_ok_iff {b : Binding} : p.bind f d = .ok b ↔ p.BoundTo f d b := by
  rw [Prototype.bind, HeaderCards.bind_eq_ok_iff]
  constructor
  · rintro ⟨as, has, h⟩
    obtain ⟨result, hresult, h⟩ := HeaderCards.bind_eq_ok_iff.mp h
    cases h
    exact ⟨rfl, rfl, rfl, mapM_bind_eq_ok_iff.mp has, Family.returnType_eq_ok_iff.mp hresult⟩
  · rintro ⟨hfamily, hprototype, hdescription, harguments, hresult⟩
    refine ⟨b.arguments, mapM_bind_eq_ok_iff.mpr harguments, ?_⟩
    rw [Family.returnType_eq_ok_iff.mpr hresult, ok_bind, ← hfamily, ← hprototype, ← hdescription]
    rfl

/-- The arguments fail to be bound at the first unknown one. -/
theorem mapM_bind_eq_error_iff {e : UnknownType} :
    (p.pair f d).mapM (Pairing.bind f) = .error e ↔
      ∃ before a after, p.arguments = before ++ a :: after ∧ (∀ c ∈ before, f.Knows c) ∧
        ¬ f.Knows a ∧ e = ⟨a.type, .argument a.name⟩ := by
  rw [mapM_eq_error_iff]
  constructor
  · rintro ⟨before, q, after, hpair, hbefore, hq⟩
    have harguments := p.map_argument_pair f d
    rw [hpair, List.map_append, List.map_cons] at harguments
    obtain ⟨hunknown, rfl⟩ := Family.argumentType_eq_error_iff.mp (map_eq_error_iff.mp hq)
    refine ⟨_, _, _, harguments.symm, fun c hc => ?_, hunknown, rfl⟩
    obtain ⟨r, hr, rfl⟩ := List.mem_map.mp hc
    exact Pairing.exists_bind_iff.mp (hbefore r hr)
  · rintro ⟨before, a, after, harguments, hbefore, ha, rfl⟩
    refine ⟨before.map _, _, after.map _, by rw [pair, harguments, List.map_append, List.map_cons],
      fun r hr => ?_, map_eq_error_iff.mpr (Family.argumentType_eq_error_iff.mpr ⟨ha, rfl⟩)⟩
    obtain ⟨c, hc, rfl⟩ := List.mem_map.mp hr
    exact Pairing.exists_bind_iff.mpr (hbefore c hc)

/-- All arguments are bound when all of them are known. -/
theorem exists_mapM_bind_iff :
    (∃ as, (p.pair f d).mapM (Pairing.bind f) = .ok as) ↔ ∀ a ∈ p.arguments, f.Knows a := by
  rw [exists_mapM_iff, pair, List.forall_mem_map]
  exact forall₂_congr fun a _ => Pairing.exists_bind_iff

/-- A prototype fails to be bound at the first thing in it of an unknown type. -/
theorem bind_eq_error_iff {e : UnknownType} :
    p.bind f d = .error e ↔ p.FirstUnknown f e e.message := by
  rw [Prototype.bind, HeaderCards.bind_eq_error_iff]
  constructor
  · rintro (h | ⟨as, has, h⟩)
    · obtain ⟨before, a, after, harguments, hbefore, ha, rfl⟩ := mapM_bind_eq_error_iff.mp h
      exact .argument harguments hbefore ha
    · have hknown := exists_mapM_bind_iff.mp ⟨as, has⟩
      rcases HeaderCards.bind_eq_error_iff.mp h with h | ⟨result, -, h⟩
      · obtain ⟨hresult, rfl⟩ := Family.returnType_eq_error_iff.mp h
        exact .result hknown hresult
      · contradiction
  · intro h
    generalize e.message = message at h
    cases h with
    | argument harguments hbefore ha =>
      exact .inl (mapM_bind_eq_error_iff.mpr ⟨_, _, _, harguments, hbefore, ha, rfl⟩)
    | result hknown hresult =>
      obtain ⟨as, has⟩ := exists_mapM_bind_iff.mpr hknown
      exact .inr ⟨as, has, HeaderCards.bind_eq_error_iff.mpr
        (.inl (Family.returnType_eq_error_iff.mpr ⟨hresult, rfl⟩))⟩

/-- A prototype has a binding when its types are known. -/
theorem exists_bind_iff : (∃ b, p.bind f d = .ok b) ↔ p.Known f := by
  rw [known_iff_and, ← exists_mapM_bind_iff (d := d), ← Family.exists_returnType_iff p.name]
  constructor
  · rintro ⟨b, hb⟩
    obtain ⟨as, has, hb⟩ := HeaderCards.bind_eq_ok_iff.mp hb
    obtain ⟨result, hresult, -⟩ := HeaderCards.bind_eq_ok_iff.mp hb
    exact ⟨⟨as, has⟩, result, hresult⟩
  · rintro ⟨⟨as, has⟩, result, hresult⟩
    exact ⟨⟨f, p, d, as, result⟩, by rw [Prototype.bind, has, ok_bind, hresult]; rfl⟩

end Prototype

end HeaderCards
