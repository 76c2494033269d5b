import HeaderCards.Catalog.Output
import HeaderCards.Proofs.Binding.Known

/-!
# Binding all functions or none

A catalog is bound when every function in it is, and otherwise fails at the first function that
is not, with the name of that function. Only families and prototypes decide, so two catalogs of
the same functions fail alike or are bound to the same types, whatever their cards say, and the
two formats that need binding types fail for the same catalogs and with the same error.
-/

namespace HeaderCards

namespace Entry

variable {f : Family} {e : Entry}

/-- A function is bound to what its types say. -/
theorem bindNamed_eq_ok_iff {b : Binding} :
    e.bindNamed f = .ok b ↔ e.prototype.BoundTo f e.description b := by
  rw [bindNamed, mapError_eq_ok_iff, Entry.bind, Prototype.bind_eq_ok_iff]

/-- The error about a function that cannot be bound: its name, what was being done with it, and
the first unknown type. -/
structure FailsWith (f : Family) (e : Entry) (m : MappingError) : Prop where
  function : m.function = e.prototype.name
  context : m.context = "failed to map types of " ++ e.prototype.name
  cause : e.prototype.FirstUnknown f m.cause m.cause.message

/-- A function has a binding when its types are known. -/
theorem exists_bindNamed_iff : (∃ b, e.bindNamed f = .ok b) ↔ e.prototype.Known f := by
  simp only [bindNamed, mapError_eq_ok_iff]
  exact Prototype.exists_bind_iff

/-- A function fails to be bound at the first unknown type, and its name is kept. -/
theorem bindNamed_eq_error_iff {m : MappingError} : e.bindNamed f = .error m ↔ e.FailsWith f m := by
  rw [bindNamed, mapError_eq_error_iff]
  constructor
  · rintro ⟨cause, h, rfl⟩
    exact ⟨rfl, rfl, Prototype.bind_eq_error_iff.mp h⟩
  · rintro ⟨hfunction, -, h⟩
    exact ⟨m.cause, Prototype.bind_eq_error_iff.mpr h, by rw [← hfunction]⟩

end Entry

namespace Catalog

variable {c : Catalog}

/-- The bindings of a catalog are those of its functions, in order. -/
theorem bindings_eq_ok_iff {bs : List Binding} :
    c.bindings = .ok bs ↔
      List.Forall₂ (fun e b => e.prototype.BoundTo c.family e.description b) c.entries bs := by
  rw [bindings, mapM_eq_ok_iff_forall₂]
  constructor
  · exact List.Forall₂.imp fun _ _ => Entry.bindNamed_eq_ok_iff.mp
  · exact List.Forall₂.imp fun _ _ => Entry.bindNamed_eq_ok_iff.mpr

/-- A catalog has bindings when all types in it are known. -/
theorem exists_bindings_iff :
    (∃ bs, c.bindings = .ok bs) ↔ ∀ e ∈ c.entries, e.prototype.Known c.family := by
  rw [bindings, exists_mapM_iff]
  exact forall₂_congr fun e _ => Entry.exists_bindNamed_iff

/-- A catalog fails to be bound at the first function with an unknown type. -/
theorem bindings_eq_error_iff {m : MappingError} :
    c.bindings = .error m ↔ ∃ before e after, c.entries = before ++ e :: after ∧
      (∀ d ∈ before, d.prototype.Known c.family) ∧ e.FailsWith c.family m := by
  rw [bindings, mapM_eq_error_iff]
  simp only [Entry.exists_bindNamed_iff, Entry.bindNamed_eq_error_iff]

/-- The bindings of the same functions are the same, documentation apart. -/
theorem map_bare_bindings_congr {c₁ c₂ : Catalog} (hfamily : c₁.family = c₂.family)
    (hprototypes : c₁.entries.map (·.prototype) = c₂.entries.map (·.prototype)) :
    c₁.bindings.map (List.map Binding.bare) = c₂.bindings.map (List.map Binding.bare) := by
  have hheader : ({ c₁ with header := c₂.header } : Catalog).bindings = c₁.bindings := rfl
  have hbare : ({ c₁ with header := c₂.header } : Catalog).bare = c₂.bare :=
    bare_eq hfamily rfl hprototypes
  rw [← hheader, map_bare_bindings, map_bare_bindings, hbare]

/-- The foreign block fails with the bindings. -/
theorem foreignBlock_eq_error_iff {m : MappingError} :
    c.write .foreignBlock = .error m ↔ c.bindings = .error m := map_eq_error_iff

/-- The record fails with the bindings. -/
theorem record_eq_error_iff {m : MappingError} :
    c.write .record = .error m ↔ c.bindings = .error m := map_eq_error_iff

/-- A catalog is bound exactly when all of its types are known, and then it has one binding for
each function, with one argument for each of the function's and every type the one that the tables
give. Otherwise it fails at the first function with an unknown type, the error naming this function
and its first argument of an unknown type, or the return value when all arguments are known.
Catalogs of the same functions are bound alike whatever their cards say, and a record fails to be
written exactly when a foreign block does, and with the same error. -/
theorem bindings_all_or_nothing (c : Catalog) :
    ((∃ bs, c.bindings = .ok bs) ↔ ∀ e ∈ c.entries, e.prototype.Known c.family) ∧
    (∀ bs, c.bindings = .ok bs →
      List.Forall₂ (fun e b => e.prototype.BoundTo c.family e.description b) c.entries bs) ∧
    (∀ m, c.bindings = .error m ↔ ∃ before e after, c.entries = before ++ e :: after ∧
      (∀ d ∈ before, d.prototype.Known c.family) ∧ e.FailsWith c.family m) ∧
    ∀ c' : Catalog, c'.family = c.family →
      c'.entries.map (·.prototype) = c.entries.map (·.prototype) →
      c'.bindings.map (List.map Binding.bare) = c.bindings.map (List.map Binding.bare) ∧
      ∀ m, c'.write .foreignBlock = .error m ↔ c.write .record = .error m := by
  refine ⟨exists_bindings_iff, fun bs => bindings_eq_ok_iff.mp, fun m => bindings_eq_error_iff,
    fun c' hfamily hprototypes => ?_⟩
  have hbare := map_bare_bindings_congr hfamily hprototypes
  refine ⟨hbare, fun m => ?_⟩
  rw [foreignBlock_eq_error_iff, record_eq_error_iff,
    ← map_eq_error_iff (f := List.map Binding.bare), hbare, map_eq_error_iff]

/-- A function whose types are all known, the layout selector among them. -/
def knownFunction : Entry :=
  ⟨⟨"LAPACKE_a", "lapack_int", [⟨"int", "matrix_layout"⟩, ⟨"int", "n"⟩]⟩, ∅, .found⟩

/-- A function with two arguments and a return value of unknown types. -/
def unknownFunction (d : Description) : Entry :=
  ⟨⟨"LAPACKE_b", "void", [⟨"int", "n"⟩, ⟨"bf16*", "a"⟩, ⟨"mystery", "b"⟩]⟩, d, .found⟩

/-- The first unknown argument fails a record, and a foreign block of the same functions with a
note on this argument as well. Without that function there is a binding, in which the layout
selector has a type of its own. -/
theorem bindings_of_unknownFunction :
    (Catalog.mk .lapack "l.h" [knownFunction, unknownFunction ∅]).write .record =
      .error ⟨"LAPACKE_b", ⟨"bf16*", .argument "a"⟩⟩ ∧
    (Catalog.mk .lapack "l.h" [knownFunction,
        unknownFunction { notes := [⟨"A", .output, []⟩] }]).write .foreignBlock =
      .error ⟨"LAPACKE_b", ⟨"bf16*", .argument "a"⟩⟩ ∧
    ∃ b, (Catalog.mk .lapack "l.h" [knownFunction]).bindings = .ok [b] ∧
      b.arguments.map (·.type) = [.matrixLayout, .scalar .int32] ∧
      knownFunction.prototype.BoundTo .lapack ∅ b := by
  have hknown : knownFunction.prototype.Known .lapack := by decide +kernel
  have hint : Family.lapack.Knows ⟨"int", "n"⟩ := by decide +kernel
  have hbf16 : ¬ Family.lapack.Knows ⟨"bf16*", "a"⟩ := by decide +kernel
  have harguments : (unknownFunction ∅).prototype.arguments =
      [⟨"int", "n"⟩] ++ ⟨"bf16*", "a"⟩ :: [⟨"mystery", "b"⟩] := rfl
  have hfails : (unknownFunction ∅).FailsWith .lapack ⟨"LAPACKE_b", ⟨"bf16*", .argument "a"⟩⟩ :=
    ⟨rfl, rfl, .argument harguments (List.forall_mem_singleton.mpr hint) hbf16⟩
  have htypes : (Catalog.mk .lapack "l.h" [knownFunction]).bindings.map
      (·.map fun b => b.arguments.map (·.type)) = .ok [[.matrixLayout, .scalar .int32]] := by
    decide +kernel
  obtain ⟨-, -, herror, halike⟩ :=
    bindings_all_or_nothing ⟨.lapack, "l.h", [knownFunction, unknownFunction ∅]⟩
  have hrecord : (Catalog.mk .lapack "l.h" [knownFunction, unknownFunction ∅]).write .record =
      .error ⟨"LAPACKE_b", ⟨"bf16*", .argument "a"⟩⟩ :=
    record_eq_error_iff.mpr ((herror _).mpr
      ⟨[knownFunction], _, [], rfl, List.forall_mem_singleton.mpr hknown, hfails⟩)
  refine ⟨hrecord, ((halike _ rfl rfl).2 _).mpr hrecord, ?_⟩
  obtain ⟨hbound, hall, -⟩ := bindings_all_or_nothing ⟨.lapack, "l.h", [knownFunction]⟩
  obtain ⟨bs, hbs⟩ := hbound.mpr (List.forall_mem_singleton.mpr hknown)
  obtain ⟨b, rest, hb, hrest, rfl⟩ := List.forall₂_cons_left_iff.mp (hall bs hbs)
  rw [List.forall₂_nil_left_iff.mp hrest] at hbs
  rw [hbs, map_ok] at htypes
  exact ⟨b, hbs, by simpa using htypes, hb⟩

end Catalog

end HeaderCards
