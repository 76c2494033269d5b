import HeaderCards.Collection
import HeaderCards.Proofs.Outcome
import Mathlib.Control.Monad.Basic

/-!
# Every entry has a card of its own

The header alone decides whether a catalog is collected and which functions it lists. What an
entry says comes from the one file that documents its function: its status is that the card was
found, together with what the card says, or the reason why there is none, together with nothing.
-/

namespace HeaderCards

/-- The text of a file, which has to be well formed. -/
def FileReader.text (read : FileReader) (path : Text) : Except FileError Text :=
  match read path with
  | .error e => .error e
  | .ok bytes =>
    match Utf8.decode? bytes with
    | none => .error .notUtf8
    | some t => .ok t

namespace Request

variable (q : Request)

/-- Of the header nothing but its text counts. -/
theorem prototypes_eq_text (read : FileReader) :
    q.prototypes read =
      match read.text q.header with
      | .error e => .error (.unreadable q.header e)
      | .ok t => (Header.prototypes q.family t).mapError (.malformed q.header) := by
  rw [prototypes, FileReader.text]
  cases read q.header with
  | error e => rfl
  | ok bytes => cases hd : Utf8.decode? bytes <;> simp only [hd]

/-- The functions of a request are declared in the text of its header. -/
theorem exists_text_of_prototypes {read : FileReader} {ps : List Prototype}
    (h : q.prototypes read = .ok ps) :
    ∃ t, read.text q.header = .ok t ∧ Header.prototypes q.family t = .ok ps := by
  rw [prototypes_eq_text] at h
  split at h
  · contradiction
  · next t ht => exact ⟨t, ht, mapError_eq_ok_iff.mp h⟩

@[simp] theorem prototype_entry (read : FileReader) (p : Prototype) :
    (q.entry read p).prototype = p := by
  rw [entry]
  split <;> rfl

/-- The functions of a catalog are those of the header that the filters keep. -/
theorem map_prototype_collect (read : FileReader) :
    (q.collect read).map (·.entries.map (·.prototype)) =
      (q.prototypes read).map (·.filter (q.keeps ·.name)) := by
  have hentry : Entry.prototype ∘ q.entry read = id := funext (q.prototype_entry read)
  rw [collect, collectBy]
  cases q.prototypes read with
  | error e => rfl
  | ok ps => simp only [map_ok, List.map_map, hentry, List.map_id, keeps]

/-- The file with the card of the function can be read, and its card says `d`. -/
def Says (read : FileReader) (function : Text) (d : Description) : Prop :=
  ∃ folder bytes, q.folder? = some folder ∧ read (q.cardPath folder function) = .ok bytes ∧
    Card.read (Utf8.decodeLossy bytes) = .ok d

/-- The function has no card, for a reason in the words of its error. -/
inductive Lacks (read : FileReader) (function : Text) : Text → Prop
  | noFolder (h : q.folder? = none) : Lacks read function "no documentation directory"
  | notFound {folder : Text} (hfolder : q.folder? = some folder)
      (h : read (q.cardPath folder function) = .error .notFound) :
      Lacks read function ("file not found: " ++ q.cardPath folder function)
  | unreadable {folder : Text} {e : FileError} (hfolder : q.folder? = some folder)
      (h : read (q.cardPath folder function) = .error e) (he : e ≠ .notFound) :
      Lacks read function
        ("failed to read " ++ q.cardPath folder function ++ ": " ++ e.message)
  | refused {folder : Text} {bytes : List UInt8} {e : CardError} (hfolder : q.folder? = some folder)
      (h : read (q.cardPath folder function) = .ok bytes)
      (he : Card.read (Utf8.decodeLossy bytes) = .error e) : Lacks read function e.message

variable {q} {read : FileReader} {function : Text} {p : Prototype}

/-- The description of a function is what its card says. -/
theorem description_eq_ok_iff {d : Description} :
    q.description read function = .ok d ↔ q.Says read function d := by
  rw [description, Says]
  cases hfolder : q.folder? with
  | none => simp
  | some folder =>
    simp only [Card.load]
    cases hread : read (q.cardPath folder function) with
    | error e => cases e <;> simp [hread]
    | ok bytes =>
      cases hcard : Card.read (Utf8.decodeLossy bytes) <;>
        simp [hread, hcard, Except.mapError]

/-- A file that cannot be read, and is not missing, is a problem of its own. -/
theorem load_of_unreadable {path : Text} {e : FileError} (h : read path = .error e)
    (he : e ≠ .notFound) : Card.load read path = .error (.unreadable path e) := by
  rw [Card.load, h]
  cases e <;> first | rfl | contradiction

/-- There is no description of a function exactly when the function lacks a card. -/
theorem lacks_iff {reason : Text} :
    q.Lacks read function reason ↔
      ∃ e, q.description read function = .error e ∧ e.message = reason := by
  constructor
  · intro h
    cases h with
    | noFolder hfolder => exact ⟨.noFolder, by rw [description, hfolder], rfl⟩
    | @notFound folder hfolder hread =>
      refine ⟨.notFound (q.cardPath folder function), ?_, rfl⟩
      rw [description, hfolder]
      simp only [Card.load, hread]
    | @unreadable folder e hfolder hread he =>
      refine ⟨.unreadable (q.cardPath folder function) e, ?_, rfl⟩
      rw [description, hfolder]
      exact load_of_unreadable hread he
    | @refused folder bytes e hfolder hread hcard =>
      refine ⟨.refused e, ?_, rfl⟩
      rw [description, hfolder]
      simp only [Card.load, hread, hcard, Except.mapError]
  · rintro ⟨problem, hproblem, rfl⟩
    rw [description] at hproblem
    cases hfolder : q.folder? with
    | none =>
      rw [hfolder] at hproblem
      cases hproblem
      exact .noFolder hfolder
    | some folder =>
      rw [hfolder] at hproblem
      cases hread : read (q.cardPath folder function) with
      | error e =>
        by_cases he : e = .notFound
        · subst he
          simp only [Card.load, hread] at hproblem
          cases hproblem
          exact .notFound hfolder hread
        · have hload := load_of_unreadable hread he
          simp only [hload] at hproblem
          cases hproblem
          exact .unreadable hfolder hread he
      | ok bytes =>
        cases hcard : Card.read (Utf8.decodeLossy bytes) with
        | error e =>
          simp only [Card.load, hread, hcard, Except.mapError] at hproblem
          cases hproblem
          exact .refused hfolder hread hcard
        | ok d => simp [Card.load, hread, hcard, Except.mapError] at hproblem

/-- Two readers that find the same at the place of the card give the same description. -/
theorem description_congr {read₁ read₂ : FileReader}
    (h : ∀ folder, q.folder? = some folder →
      read₁ (q.cardPath folder function) = read₂ (q.cardPath folder function)) :
    q.description read₁ function = q.description read₂ function := by
  cases hfolder : q.folder? with
  | none => simp only [description, hfolder]
  | some folder => simp only [description, hfolder, Card.load, h folder hfolder]

/-- The entry of a function was found with what its card says, or else is empty but for the
reason why there is no card. -/
theorem entry_spec (q : Request) (read : FileReader) (p : Prototype) :
    ((q.entry read p).status = .found ↔ ∃ d, q.Says read p.name d) ∧
    (∀ d, q.Says read p.name d → (q.entry read p).description = d) ∧
    (∀ reason, (q.entry read p).status = .missing reason ↔ q.Lacks read p.name reason) ∧
    ((q.entry read p).status ≠ .found → (q.entry read p).description = ∅) := by
  simp only [← description_eq_ok_iff, lacks_iff, entry]
  cases q.description read p.name with
  | error e => simp
  | ok d => simp

/-- An entry of a catalog is the entry of its prototype. -/
theorem eq_entry_of_mem_collect {c : Catalog} (h : q.collect read = .ok c) {e : Entry}
    (he : e ∈ c.entries) : e = q.entry read e.prototype := by
  obtain ⟨ps, -, rfl⟩ := map_eq_ok_iff.mp h
  obtain ⟨p, -, rfl⟩ := List.mem_map.mp he
  rw [prototype_entry]

/-- An entry of a catalog was made of a prototype of the header. -/
theorem exists_of_mem_collect {c : Catalog} (h : q.collect read = .ok c) {e : Entry}
    (he : e ∈ c.entries) : ∃ t ps, Header.prototypes q.family t = .ok ps ∧ e.prototype ∈ ps := by
  obtain ⟨ps, hps, rfl⟩ := map_eq_ok_iff.mp h
  obtain ⟨t, -, ht⟩ := q.exists_text_of_prototypes hps
  obtain ⟨p, hp, rfl⟩ := List.mem_map.mp he
  rw [prototype_entry]
  exact ⟨t, ps, ht, (List.mem_filter.mp hp).1⟩

/-- Cards never fail a catalog, and no card tells on another. The header alone decides whether
there is a catalog and which functions it lists, an entry depends on nothing but the file that
documents its function, and it says what the card in that file says or why there is none. -/
theorem collect_by_cards (q : Request) :
    (∀ read : FileReader, (q.collect read).map (·.entries.map (·.prototype)) =
      (q.prototypes read).map (·.filter (q.keeps ·.name))) ∧
    (∀ read₁ read₂ : FileReader, read₁.text q.header = read₂.text q.header →
      (∃ e, q.collect read₁ = .error e ∧ q.collect read₂ = .error e) ∨
      ∃ c₁ c₂, q.collect read₁ = .ok c₁ ∧ q.collect read₂ = .ok c₂ ∧
        c₁.entries.map (·.prototype) = c₂.entries.map (·.prototype)) ∧
    (∀ read₁ read₂ : FileReader, ∀ c₁ c₂,
      q.collect read₁ = .ok c₁ → q.collect read₂ = .ok c₂ →
      ∀ e₁ ∈ c₁.entries, ∀ e₂ ∈ c₂.entries, e₁.prototype = e₂.prototype →
      (∀ folder, q.folder? = some folder →
        read₁ (q.cardPath folder e₁.prototype.name) =
          read₂ (q.cardPath folder e₁.prototype.name)) → e₁ = e₂) ∧
    ∀ (read : FileReader) (c : Catalog), q.collect read = .ok c → ∀ e ∈ c.entries,
      (e.status = .found ↔ ∃ d, q.Says read e.prototype.name d) ∧
      (∀ d, q.Says read e.prototype.name d → e.description = d) ∧
      (∀ reason, e.status = .missing reason ↔ q.Lacks read e.prototype.name reason) ∧
      (e.status ≠ .found → e.description = ∅) := by
  refine ⟨q.map_prototype_collect, ?_, ?_, ?_⟩
  · intro read₁ read₂ htext
    have hprototypes : q.prototypes read₁ = q.prototypes read₂ := by
      rw [prototypes_eq_text, prototypes_eq_text, htext]
    cases hps : q.prototypes read₁ with
    | error e =>
      exact Or.inl ⟨e, by rw [collect, collectBy, hps, map_error],
        by rw [collect, collectBy, ← hprototypes, hps, map_error]⟩
    | ok ps =>
      refine Or.inr ⟨_, _, by rw [collect, collectBy, hps, map_ok],
        by rw [collect, collectBy, ← hprototypes, hps, map_ok], ?_⟩
      simp
  · intro read₁ read₂ c₁ c₂ h₁ h₂ e₁ he₁ e₂ he₂ hsame hcard
    rw [eq_entry_of_mem_collect h₁ he₁, eq_entry_of_mem_collect h₂ he₂, ← hsame, entry, entry,
      description_congr hcard]
  · intro read c h e he
    rw [eq_entry_of_mem_collect h he]
    simpa using q.entry_spec read e.prototype

/-- A header with two functions, the first of which has a card, and a card for the second. -/
def pairTree (card : Text) : FileTree :=
  ⟨[(["l.h".toList],
      .file (Utf8.encode "lapack_int LAPACKE_a(int x);\nlapack_int LAPACKE_b(int y);\n")),
    (["d".toList], .folder),
    (["d".toList, "a.f".toList], .file (Utf8.encode "*> Purpose:\n*> \\verbatim\n*>\n*> A.\n")),
    (["d".toList, "b.f".toList], .file (Utf8.encode card))]⟩

/-- What to collect from the two functions. -/
def pairRequest : Request := { header := "l.h", family := .lapack, folder? := some "d" }

/-- The entry of the first of the two functions. -/
def firstEntry : Entry :=
  ⟨⟨"LAPACKE_a", "lapack_int", [⟨"int", "x"⟩]⟩, { purpose := ["A.".toList] }, .found⟩

/-- The catalog of the two functions, with an entry for the second. -/
def pairCatalog (description : Description) (status : CardStatus) : Catalog :=
  ⟨.lapack, "l.h",
    [firstEntry, ⟨⟨"LAPACKE_b", "lapack_int", [⟨"int", "y"⟩]⟩, description, status⟩]⟩

/-- A card with a broken tag leaves its function without a card, and the entry of the other
function as it is beside a card that says nothing. -/
theorem collect_by_cards_of_pair :
    FileReader.text (pairTree []).read pairRequest.header =
      FileReader.text (pairTree "*> Arguments:\n*> \\param[in]\n").read pairRequest.header ∧
    pairRequest.collect (pairTree []).read = .ok (pairCatalog ∅ .found) ∧
    (∃ c, pairRequest.collect (pairTree "*> Arguments:\n*> \\param[in]\n").read = .ok c ∧
      c.entries.map (·.prototype) = (pairCatalog ∅ .found).entries.map (·.prototype) ∧
      ∀ e ∈ c.entries, e.prototype = firstEntry.prototype → firstEntry = e) ∧
    pairRequest.Lacks (pairTree "*> Arguments:\n*> \\param[in]\n").read "LAPACKE_b"
      "failed to read the param tag: \\param[in]" := by
  have htext : FileReader.text (pairTree []).read pairRequest.header =
      FileReader.text (pairTree "*> Arguments:\n*> \\param[in]\n").read pairRequest.header := by
    decide +kernel
  have hcard : (pairTree []).read (pairRequest.cardPath "d" firstEntry.prototype.name) =
      (pairTree "*> Arguments:\n*> \\param[in]\n").read
        (pairRequest.cardPath "d" firstEntry.prototype.name) := by
    decide +kernel
  have hsound : pairRequest.collect (pairTree []).read = .ok (pairCatalog ∅ .found) := by
    decide +kernel
  have hbroken : pairRequest.collect (pairTree "*> Arguments:\n*> \\param[in]\n").read =
      .ok (pairCatalog ∅ (.missing "failed to read the param tag: \\param[in]")) := by
    decide +kernel
  obtain ⟨-, hsame, hown, hstatus⟩ := collect_by_cards pairRequest
  refine ⟨htext, hsound, ⟨_, hbroken, ?_, fun e he hfirst => ?_⟩, ?_⟩
  · rcases hsame _ _ htext with ⟨e, he, -⟩ | ⟨c₁, c₂, h₁, h₂, hmap⟩
    · rw [hsound] at he
      contradiction
    · rw [hsound] at h₁
      rw [hbroken] at h₂
      cases h₁
      cases h₂
      exact hmap.symm
  · refine hown _ _ _ _ hsound hbroken firstEntry (List.mem_cons_self ..) e he hfirst.symm ?_
    intro folder hfolder
    cases hfolder
    exact hcard
  · exact ((hstatus _ _ hbroken _ (List.mem_cons_of_mem _ (List.mem_singleton_self _))).2.2.1
      _).mp rfl

end Request

end HeaderCards
