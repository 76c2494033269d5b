import HeaderCards.Catalog.Output
import HeaderCards.Proofs.Binding.Bare

/-!
# What the coverage check reports

The check writes one report for every function, in order. A function without a card is named
with the reason, a function that lacks no note but that on its layout selector is passed over,
and any other function is listed with all of its arguments. The marks in this list are those of
the binding of the function, but types have no part in it, so the check has a result even where
a function cannot be bound.
-/

namespace HeaderCards

namespace Entry

variable {f : Family} {e : Entry}

/-- Nothing that a card should document lacks a note. -/
inductive Covered (f : Family) (e : Entry) : Prop
  /-- Every argument has a note. -/
  | full (h : ∀ q ∈ e.pairs f, q.note? ≠ none)
  /-- One argument alone has none, and it selects the layout. -/
  | butLayout {before after : List Pairing} {q : Pairing} (h : e.pairs f = before ++ q :: after)
      (hnote : q.note? = none) (hlayout : f.isLayout q.argument.name = true)
      (hothers : ∀ r ∈ before ++ after, r.note? ≠ none)

/-- Every argument has a note. -/
theorem undocumented_eq_nil_iff : e.undocumented f = [] ↔ ∀ q ∈ e.pairs f, q.note? ≠ none := by
  simp [undocumented, List.filter_eq_nil_iff]

/-- One argument alone has no note. -/
theorem undocumented_eq_singleton_iff {name : Text} :
    e.undocumented f = [name] ↔ ∃ before q after, e.pairs f = before ++ q :: after ∧
      q.note? = none ∧ q.argument.name = name ∧ ∀ r ∈ before ++ after, r.note? ≠ none := by
  rw [undocumented, List.map_eq_singleton_iff]
  constructor
  · rintro ⟨q, hfilter, rfl⟩
    obtain ⟨before, after, hpairs, hbefore, hnote, hafter⟩ := List.filter_eq_cons_iff.mp hfilter
    refine ⟨before, q, after, hpairs, by simpa using hnote, rfl, fun r hr => ?_⟩
    rcases List.mem_append.mp hr with hr | hr
    · simpa using hbefore r hr
    · simpa using List.filter_eq_nil_iff.mp hafter r hr
  · rintro ⟨before, q, after, hpairs, hnote, rfl, hothers⟩
    refine ⟨q, List.filter_eq_cons_iff.mpr ⟨before, after, hpairs, ?_, by simp [hnote], ?_⟩, rfl⟩
    · intro r hr
      simpa using hothers r (List.mem_append_left after hr)
    · rw [List.filter_eq_nil_iff]
      intro r hr
      simpa using hothers r (List.mem_append_right before hr)

/-- The check made of a function decides whether it is covered. -/
theorem isCovered_iff : e.isCovered f = true ↔ e.Covered f := by
  constructor
  · intro h
    rw [isCovered] at h
    split at h
    · next hnil => exact .full (undocumented_eq_nil_iff.mp hnil)
    · next name hname =>
      obtain ⟨before, q, after, hpairs, hnote, rfl, hothers⟩ :=
        undocumented_eq_singleton_iff.mp hname
      exact .butLayout hpairs hnote h hothers
    · contradiction
  · rintro (h | ⟨hpairs, hnote, hlayout, hothers⟩)
    · rw [isCovered, undocumented_eq_nil_iff.mpr h]
    · rw [isCovered, undocumented_eq_singleton_iff.mpr ⟨_, _, _, hpairs, hnote, rfl, hothers⟩]
      exact hlayout

instance (f : Family) (e : Entry) : Decidable (e.Covered f) := decidable_of_iff _ isCovered_iff

/-- The line for an argument, marked after the note that has been found on it, if any. -/
inductive Marked (a : Argument) : Option Note → Text → Prop
  | documented (n : Note) : Marked a (some n) ("    " ++ a.name ++ ": OK\n")
  | undocumented : Marked a none ("    " ++ a.name ++ ": Not found!\n")

/-- The lines for the arguments of a function, one for each of them in order. Where the function
has a binding, they are marked after the notes in it. -/
structure Listed (f : Family) (e : Entry) (lines : List Text) : Prop where
  paired : List.Forall₂ (fun a line =>
    Marked a (f.noteFor? e.prototype.name e.description a.name) line) e.prototype.arguments lines
  bound : ∀ b, e.bind f = .ok b → b.arguments.map (·.argument) = e.prototype.arguments ∧
    List.Forall₂ (fun a line => Marked a.argument a.note? line) b.arguments lines

/-- What the check has to say about a function. -/
inductive Reports (f : Family) (e : Entry) : Text → Prop
  /-- The reason why there is no card, and an empty line. -/
  | missing {reason : Text} (h : e.status = .missing reason) :
      Reports f e (e.prototype.name ++ " -> " ++ reason ++ "\n\n")
  /-- Nothing. -/
  | covered (h : e.status = .found) (hcovered : e.Covered f) : Reports f e []
  /-- The name of the function, its arguments, and an empty line. -/
  | listed {lines : List Text} (h : e.status = .found) (hcovered : ¬ e.Covered f)
      (hlines : e.Listed f lines) :
      Reports f e (e.prototype.name ++ "\n" ++ lines.flatten ++ "\n")

/-- An argument is marked on its line. -/
theorem marked_coverageLine (q : Pairing) :
    Marked q.argument q.note? (coverageLine q ++ "\n") := by
  obtain ⟨a, note?⟩ := q
  cases note? with
  | none => simpa [coverageLine] using Marked.undocumented (a := a)
  | some n => simpa [coverageLine] using Marked.documented (a := a) n

/-- The lines of the check list the arguments. -/
theorem listed_coverageLines (f : Family) (e : Entry) :
    e.Listed f ((e.pairs f).map (coverageLine · ++ "\n")) := by
  constructor
  · rw [List.forall₂_map_right_iff, pairs, Prototype.pair, List.forall₂_map_right_iff]
    exact List.forall₂_same.mpr fun a _ =>
      marked_coverageLine ⟨a, f.noteFor? e.prototype.name e.description a.name⟩
  · intro b hb
    obtain ⟨-, -, -, hpairs⟩ := Prototype.of_bind hb
    constructor
    · rw [← Prototype.map_argument_pair e.prototype f e.description, ← hpairs, List.map_map]
      rfl
    · rw [pairs, ← hpairs, List.map_map, List.forall₂_map_right_iff]
      exact List.forall₂_same.mpr fun a _ => marked_coverageLine a.toPairing

/-- The check says of a function what it has to say. -/
theorem reports_coverage (f : Family) (e : Entry) : e.Reports f (Text.unlines (e.coverage f)) := by
  cases hstatus : e.status with
  | missing reason =>
    have hlines : Text.unlines (e.coverage f) = e.prototype.name ++ " -> " ++ reason ++ "\n\n" := by
      simp [coverage, hstatus]
    exact hlines ▸ .missing hstatus
  | found =>
    by_cases hcovered : e.isCovered f = true
    · have hlines : Text.unlines (e.coverage f) = [] := by
        simp [coverage, hstatus, hcovered]
      exact hlines ▸ .covered hstatus (isCovered_iff.mp hcovered)
    · have hlines : Text.unlines (e.coverage f) = e.prototype.name ++ "\n" ++
          ((e.pairs f).map (coverageLine · ++ "\n")).flatten ++ "\n" := by
        simp [coverage, hstatus, hcovered, Text.unlines, List.flatMap_def, Function.comp_def]
      exact hlines ▸ .listed hstatus (fun h => hcovered (isCovered_iff.mpr h))
        (listed_coverageLines f e)

/-- There is nothing to say about a function exactly when it has a card and is covered. -/
theorem Reports.eq_nil_iff {report : Text} (h : e.Reports f report) :
    report = [] ↔ e.status = .found ∧ e.Covered f := by
  cases h with
  | missing h => simp [h]
  | covered h hcovered => simp [h, hcovered]
  | listed h hcovered => simp [hcovered]

/-- Of a function with a card that is not covered the arguments are listed. -/
theorem Reports.exists_listed {report : Text} (h : e.Reports f report) (hstatus : e.status = .found)
    (hcovered : ¬ e.Covered f) :
    ∃ lines, report = e.prototype.name ++ "\n" ++ lines.flatten ++ "\n" ∧ e.Listed f lines := by
  cases h with
  | missing h => simp [h] at hstatus
  | covered h hc => exact absurd hc hcovered
  | listed h hc hlines => exact ⟨_, rfl, hlines⟩

end Entry

/-- The check writes the reports of all functions one after the other. -/
theorem Catalog.coverage_eq_flatten (c : Catalog) :
    c.coverage = (c.entries.map fun e => Text.unlines (e.coverage c.family)).flatten := by
  rw [Catalog.coverage, Text.unlines, List.flatMap_assoc, List.flatMap_def]
  rfl

/-- The check has a result for every catalog, whether or not its functions can be bound: the
reports of its functions, one for each of them in order. The result is empty exactly when every
function has a card and lacks no note but that on its layout selector. -/
theorem Catalog.coverage_by_reports (c : Catalog) :
    ∃ reports : List Text, c.write .coverage = .ok reports.flatten ∧
      List.Forall₂ (Entry.Reports c.family) c.entries reports ∧
      (reports.flatten = [] ↔ ∀ e ∈ c.entries, e.status = .found ∧ e.Covered c.family) := by
  refine ⟨c.entries.map fun e => Text.unlines (e.coverage c.family),
    congrArg Except.ok c.coverage_eq_flatten, ?_, ?_⟩
  · rw [List.forall₂_map_right_iff]
    exact List.forall₂_same.mpr fun e _ => e.reports_coverage c.family
  · rw [List.flatten_eq_nil_iff, List.forall_mem_map]
    exact forall₂_congr fun e _ => (e.reports_coverage c.family).eq_nil_iff

/-- A function with a type of no binding whose card lacks the layout selector. -/
def layoutGap : Entry :=
  ⟨⟨"LAPACKE_a", "lapack_int", [⟨"int", "matrix_layout"⟩, ⟨"mystery", "n"⟩]⟩,
    { notes := [⟨"N", .input, []⟩] }, .found⟩

/-- A function whose card lacks the layout selector and one more argument. -/
def secondGap : Entry :=
  ⟨⟨"LAPACKE_b", "lapack_int", [⟨"int", "matrix_layout"⟩, ⟨"int", "n"⟩, ⟨"int", "lda"⟩]⟩,
    { notes := [⟨"N", .input, []⟩] }, .found⟩

/-- The check is silent on the layout selector alone, although the function cannot be bound. It
reports the selector where another argument lacks a note as well, with the marks of the binding. -/
theorem Catalog.coverage_of_gaps :
    (Catalog.mk .lapack "l.h" [layoutGap]).write .coverage = .ok [] ∧
    (Catalog.mk .lapack "l.h" [layoutGap]).bindings =
      .error ⟨"LAPACKE_a", ⟨"mystery", .argument "n"⟩⟩ ∧
    ∃ lines : List Text, (Catalog.mk .lapack "l.h" [layoutGap, secondGap]).write .coverage =
        .ok ("LAPACKE_b\n" ++ lines.flatten ++ "\n") ∧
      ∃ b, secondGap.bind .lapack = .ok b ∧
        b.arguments.map (·.note?.isSome) = [false, true, false] ∧
        List.Forall₂ (fun a line => Entry.Marked a.argument a.note? line) b.arguments lines := by
  have hgap : layoutGap.Covered .lapack := by decide +kernel
  have hsecond : ¬ secondGap.Covered .lapack := by decide +kernel
  have hbinding : (secondGap.bind .lapack).map (·.arguments.map (·.note?.isSome)) =
      .ok [false, true, false] := by
    decide +kernel
  obtain ⟨alone, halone, -, hsilent⟩ := coverage_by_reports ⟨.lapack, "l.h", [layoutGap]⟩
  obtain ⟨reports, hreports, heach, -⟩ :=
    coverage_by_reports ⟨.lapack, "l.h", [layoutGap, secondGap]⟩
  have hempty : alone.flatten = [] := hsilent.mpr fun e he => by
    rw [List.mem_singleton.mp he]
    exact ⟨rfl, hgap⟩
  refine ⟨by rw [halone, hempty], by decide +kernel, ?_⟩
  obtain ⟨first, rest, hfirst, hrest, rfl⟩ := List.forall₂_cons_left_iff.mp heach
  obtain ⟨last, behind, hlast, hbehind, rfl⟩ := List.forall₂_cons_left_iff.mp hrest
  obtain ⟨lines, hlines, hlisted⟩ := hlast.exists_listed rfl hsecond
  obtain ⟨b, hb, hnotes⟩ := map_eq_ok_iff.mp hbinding
  refine ⟨lines, ?_, b, hb, hnotes, (hlisted.bound b hb).2⟩
  rw [hreports, hfirst.eq_nil_iff.mpr ⟨rfl, hgap⟩, List.forall₂_nil_left_iff.mp hbehind, hlines]
  simp only [List.flatten_cons, List.flatten_nil, List.nil_append, List.append_nil]
  rfl

end HeaderCards
