import HeaderCards.Catalog
import HeaderCards.Proofs.Outcome

/-!
# Bindings without documentation

What a function is bound to comes from its prototype alone. When everything that a card says is
left out of a binding, what remains is the binding of the bare prototype, and a catalog whose
cards are left out is bound, or fails to be bound, in the same way.
-/

namespace HeaderCards

/-- The argument without the note on it. -/
def BoundArgument.bare (a : BoundArgument) : BoundArgument := { a with note? := none }

/-- The binding without anything that a card says. -/
def Binding.bare (b : Binding) : Binding :=
  { b with description := ∅, arguments := b.arguments.map BoundArgument.bare }

/-- The entry of a function whose card says nothing. -/
def Entry.bare (e : Entry) : Entry := ⟨e.prototype, ∅, .found⟩

/-- The catalog of the same functions whose cards say nothing. -/
def Catalog.bare (c : Catalog) : Catalog := { c with entries := c.entries.map Entry.bare }

/-- Catalogs of the same functions of a header differ in their cards only. -/
theorem Catalog.bare_eq {c₁ c₂ : Catalog} (hfamily : c₁.family = c₂.family)
    (hheader : c₁.header = c₂.header)
    (hprototypes : c₁.entries.map (·.prototype) = c₂.entries.map (·.prototype)) :
    c₁.bare = c₂.bare := by
  have hentries (c : Catalog) :
      c.entries.map Entry.bare = (c.entries.map (·.prototype)).map (⟨·, ∅, .found⟩) := by
    rw [List.map_map]
    rfl
  rw [Catalog.bare, Catalog.bare, hfamily, hheader, hentries, hentries, hprototypes]

/-- Notes have no part in the type of an argument. -/
theorem Pairing.map_bare_bind (f : Family) (q : Pairing) :
    (q.bind f).map BoundArgument.bare = Pairing.bind f { q with note? := none } := by
  rw [Pairing.bind, Pairing.bind]
  cases f.argumentType q.argument <;> rfl

/-- Where a card says nothing, no argument has a note. -/
theorem Prototype.pair_empty (p : Prototype) (f : Family) :
    p.pair f ∅ = p.arguments.map (⟨·, none⟩) := by
  have hnote (name : Text) : Description.note? ∅ name = none := rfl
  simp [Prototype.pair, Family.noteFor?, hnote]

/-- A binding without its documentation is the binding of the prototype. -/
theorem Prototype.map_bare_bind (p : Prototype) (f : Family) (d : Description) :
    (p.bind f d).map Binding.bare = p.bind f ∅ := by
  have hpair : (p.pair f d).map (fun q => { q with note? := none }) = p.pair f ∅ := by
    rw [pair_empty, pair, List.map_map]
    rfl
  have harguments : ((p.pair f d).mapM (Pairing.bind f)).map (List.map BoundArgument.bare) =
      (p.pair f ∅).mapM (Pairing.bind f) := by
    rw [map_mapM, ← hpair, List.mapM_map]
    exact congrArg (List.mapM · _) (funext (Pairing.map_bare_bind f))
  rw [Prototype.bind, Prototype.bind, ← harguments]
  cases (p.pair f d).mapM (Pairing.bind f) with
  | error e => rfl
  | ok as => cases f.returnType p.returnType p.name <;> rfl

/-- An entry is bound like its prototype, documentation apart. -/
theorem Entry.map_bare_bindNamed (f : Family) (e : Entry) :
    (e.bindNamed f).map Binding.bare = e.bare.bindNamed f := by
  have h := e.prototype.map_bare_bind f e.description
  rw [Entry.bindNamed, Entry.bindNamed, Entry.bind, Entry.bind, Entry.bare, ← h]
  cases e.prototype.bind f e.description <;> rfl

/-- A catalog is bound like its prototypes, documentation apart. -/
theorem Catalog.map_bare_bindings (c : Catalog) :
    c.bindings.map (List.map Binding.bare) = c.bare.bindings := by
  rw [Catalog.bindings, Catalog.bindings, map_mapM, Catalog.bare, List.mapM_map]
  exact congrArg (List.mapM · _) (funext (Entry.map_bare_bindNamed c.family))

/-- A bound argument tells what it was made of. -/
theorem Pairing.toPairing_of_bind {f : Family} {q : Pairing} {a : BoundArgument}
    (h : q.bind f = .ok a) : a.toPairing = q := by
  obtain ⟨type, -, rfl⟩ := map_eq_ok_iff.mp h
  rfl

/-- A binding tells what it was made of. -/
theorem Prototype.of_bind {p : Prototype} {f : Family} {d : Description} {b : Binding}
    (h : p.bind f d = .ok b) :
    b.family = f ∧ b.prototype = p ∧ b.description = d ∧
      b.arguments.map (·.toPairing) = p.pair f d := by
  obtain ⟨as, has, h⟩ := bind_eq_ok_iff.mp h
  obtain ⟨result, -, h⟩ := bind_eq_ok_iff.mp h
  cases h
  exact ⟨rfl, rfl, rfl, map_eq_of_mapM (fun _ _ => Pairing.toPairing_of_bind) has⟩

/-- The note on an argument is one of the description. -/
theorem Prototype.of_mem_pair {p : Prototype} {f : Family} {d : Description} {q : Pairing}
    (h : q ∈ p.pair f d) :
    q.argument ∈ p.arguments ∧ ∀ n, q.note? = some n → n ∈ d.notes := by
  obtain ⟨a, ha, rfl⟩ := List.mem_map.mp h
  refine ⟨ha, fun n hn => ?_⟩
  obtain ⟨name, -, hname⟩ := List.exists_of_findSome?_eq_some hn
  exact List.mem_of_find?_eq_some hname

end HeaderCards
