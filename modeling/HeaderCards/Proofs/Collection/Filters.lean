import HeaderCards.Proofs.Collection.OwnCard
import HeaderCards.Proofs.Header.Prototypes

/-!
# Filters

Filters decide which functions of a header are listed, and nothing else. They come into play
when the header has been read and every name has its prototype, so they neither hide an error in
the header nor change which prototype of a name counts; and they come into play before cards are
read, but what an entry says depends on its own card only. So collecting with filters is the same
as collecting without and leaving out the entries that none of them chooses.

Nothing of this depends on how patterns are matched: it holds of any selections, and filters are
the selections that their patterns make.
-/

namespace HeaderCards

namespace Selection

/-- Without selections every name is kept. -/
@[simp] theorem keep_nil (name : Text) : keep [] name = true := rfl

/-- Selections keep what one of them chooses. -/
theorem keep_of_ne_nil {selections : List Selection} (h : selections ≠ []) (name : Text) :
    keep selections name = selections.any (· name) := by
  rw [keep, List.isEmpty_eq_false_iff.mpr h, Bool.false_or]

/-- Neither the order of the selections nor how often they occur decides what is kept. -/
theorem keep_congr {fs gs : List Selection} (h : ∀ p, p ∈ fs ↔ p ∈ gs) : keep fs = keep gs := by
  funext name
  have hempty : fs = [] ↔ gs = [] := by
    simp only [List.eq_nil_iff_forall_not_mem, h]
  rw [Bool.eq_iff_iff, keep, keep]
  simp [hempty, h]

end Selection

namespace Request

/-- The same request with these filters. -/
def filteredBy (q : Request) (filters : List Glob) : Request := { q with filters }

variable (q : Request) {read : FileReader}

/-- Filters choose what their patterns select, and change nothing else of a request. -/
theorem collect_filteredBy (filters : List Glob) (read : FileReader) :
    (q.filteredBy filters).collect read = q.collectBy (filters.map Glob.selects) read := rfl

/-- Collecting with selections is collecting without and leaving out what they do not keep. -/
theorem collectBy_eq_filter (selections : List Selection) (read : FileReader) :
    q.collectBy selections read = (q.collectBy [] read).map fun c =>
      { c with entries := c.entries.filter (Selection.keep selections ·.prototype.name) } := by
  have hkeep : (fun e : Entry => Selection.keep selections e.prototype.name) ∘ q.entry read =
      fun p => Selection.keep selections p.name := by
    funext p
    rw [Function.comp_apply, prototype_entry]
  rw [collectBy, collectBy]
  cases q.prototypes read with
  | error e => rfl
  | ok ps => simp only [map_ok, Selection.keep_nil, List.filter_true, List.filter_map, hkeep]

/-- No name is listed twice. -/
theorem nodup_names_collectBy {selections : List Selection} {c : Catalog}
    (h : q.collectBy selections read = .ok c) : (c.entries.map (·.prototype.name)).Nodup := by
  obtain ⟨ps, hps, rfl⟩ := map_eq_ok_iff.mp h
  obtain ⟨t, -, ht⟩ := q.exists_text_of_prototypes hps
  obtain ⟨declared, -, -, rfl⟩ := Header.prototypes_eq_ok_iff.mp ht
  have hnames (kept : List Prototype) :
      (kept.map (q.entry read)).map (·.prototype.name) = kept.map (·.name) := by
    simp [Function.comp_def]
  rw [hnames]
  exact (List.filter_sublist.map _).nodup (Prototype.nodup_names_distinct _)

/-- A header that cannot be read fails the collection, whatever the selections are. -/
theorem collectBy_of_malformed {t : Text} {e : DeclarationError}
    (htext : read.text q.header = .ok t) (h : Header.prototypes q.family t = .error e)
    (selections : List Selection) :
    q.collectBy selections read = .error (.malformed q.header e) := by
  rw [collectBy, prototypes_eq_text, htext]
  simp only [h, mapError_error, map_error]

/-- Filters are selections, and of any selections the following holds. Collecting with them fails
with the error with which collecting without them fails, and otherwise lists the same entries
without those that none of them chooses. No name is listed twice. Order and repetition of the
selections do not count, and two lists of them together keep what either of them keeps. A
declaration that cannot be read fails the collection whatever the selections are. -/
theorem collect_by_filters (read : FileReader) :
    (∀ filters : List Glob,
      (q.filteredBy filters).collect read = q.collectBy (filters.map Glob.selects) read) ∧
    (∀ selections : List Selection, selections ≠ [] →
      (∃ e, q.collectBy [] read = .error e ∧ q.collectBy selections read = .error e) ∨
      ∃ c, q.collectBy [] read = .ok c ∧ q.collectBy selections read =
        .ok { c with entries := c.entries.filter fun e => selections.any (· e.prototype.name) }) ∧
    (∀ selections c, q.collectBy selections read = .ok c →
      (c.entries.map (·.prototype.name)).Nodup) ∧
    (∀ fs gs : List Selection, (∀ p, p ∈ fs ↔ p ∈ gs) → q.collectBy fs read = q.collectBy gs read) ∧
    (∀ fs gs : List Selection, fs ≠ [] → gs ≠ [] → ∀ c, q.collectBy (fs ++ gs) read = .ok c →
      ∃ c₁ c₂, q.collectBy fs read = .ok c₁ ∧ q.collectBy gs read = .ok c₂ ∧
        ∀ e, e ∈ c.entries ↔ e ∈ c₁.entries ∨ e ∈ c₂.entries) ∧
    ∀ t before block after e, read.text q.header = .ok t →
      Header.blocks q.family (Header.declarationLines q.family t) = before ++ block :: after →
      (∀ b ∈ before, ∃ p, Declaration.read b = .ok p) → Declaration.read block = .error e →
      ∀ selections, q.collectBy selections read = .error (.malformed q.header e) := by
  refine ⟨fun filters => q.collect_filteredBy filters read, fun selections hselections => ?_,
    fun selections c => q.nodup_names_collectBy, fun fs gs h => ?_, fun fs gs hfs hgs c h => ?_,
    fun t before block after e htext hblocks hbefore hblock selections => ?_⟩
  · rw [q.collectBy_eq_filter selections]
    cases q.collectBy [] read with
    | error e => exact .inl ⟨e, rfl, rfl⟩
    | ok c => exact .inr ⟨c, rfl, by simp only [map_ok, Selection.keep_of_ne_nil hselections]⟩
  · rw [collectBy, collectBy, Selection.keep_congr h]
  · rw [q.collectBy_eq_filter] at h
    obtain ⟨whole, hwhole, rfl⟩ := map_eq_ok_iff.mp h
    refine ⟨_, _, by rw [q.collectBy_eq_filter, hwhole, map_ok],
      by rw [q.collectBy_eq_filter, hwhole, map_ok], fun e => ?_⟩
    simp only [List.mem_filter, Selection.keep_of_ne_nil hfs, Selection.keep_of_ne_nil hgs,
      Selection.keep_of_ne_nil (List.append_ne_nil_of_left_ne_nil hfs gs), List.any_append,
      Bool.or_eq_true, and_or_left]
  · refine q.collectBy_of_malformed htext ?_ selections
    have hread := mapM_eq_error_iff.mpr ⟨before, block, after, hblocks, hbefore, hblock⟩
    exact (Header.prototypes_eq_blocks q.family t).trans (by rw [hread, error_bind])

/-- Patterns for the names that end in the character. -/
def endingIn (c : Char) : List Glob := [[.anySequence, .char c]]

/-- Of the two functions, one is listed as it is without filters, and both are listed when either
is asked for, in whatever order. The broken declaration of a third one fails the collection
although no pattern selects its name. -/
theorem collect_of_endingIn :
    (pairRequest.filteredBy (endingIn 'a')).collect (pairTree []).read =
      .ok { pairCatalog ∅ .found with entries := [firstEntry] } ∧
    (pairRequest.filteredBy (endingIn 'b' ++ endingIn 'a')).collect (pairTree []).read =
      (pairRequest.filteredBy (endingIn 'a' ++ endingIn 'b')).collect (pairTree []).read ∧
    (∃ c, (pairRequest.filteredBy (endingIn 'b' ++ endingIn 'a')).collect (pairTree []).read =
      .ok c ∧ firstEntry ∈ c.entries ∧ (c.entries.map (·.prototype.name)).Nodup) ∧
    ∀ g ∈ endingIn 'a', g.selects "LAPACKE_d" = false ∧ (pairRequest.filteredBy [g]).collect
      (fun _ => .ok (Utf8.encode Header.brokenHeader)) =
        .error (.malformed "l.h" (.emptyArgument "LAPACKE_d")) := by
  have hwhole : pairRequest.collectBy [] (pairTree []).read = .ok (pairCatalog ∅ .found) := by
    decide +kernel
  have hkept : (pairCatalog ∅ .found).entries.filter
      (fun e => ((endingIn 'a').map Glob.selects).any (· e.prototype.name)) = [firstEntry] := by
    decide +kernel
  have hboth : pairRequest.collectBy
      ((endingIn 'b').map Glob.selects ++ (endingIn 'a').map Glob.selects) (pairTree []).read =
        .ok (pairCatalog ∅ .found) := by
    decide +kernel
  have htext : FileReader.text (fun _ => .ok (Utf8.encode Header.brokenHeader)) "l.h" =
      .ok Header.brokenHeader := by
    decide +kernel
  have hblocks : Header.blocks .lapack (Header.declarationLines .lapack Header.brokenHeader) =
      [] ++ ["lapack_int LAPACKE_d(int x, );".toList] ::
        (Header.blocks .lapack (Header.declarationLines .lapack Header.brokenHeader)).tail := by
    decide +kernel
  have hskips : ∀ g ∈ endingIn 'a', g.selects "LAPACKE_d" = false := by decide +kernel
  obtain ⟨hglobs, hchosen, hnodup, hsame, heither, -⟩ :=
    pairRequest.collect_by_filters (pairTree []).read
  have hone : pairRequest.collectBy ((endingIn 'a').map Glob.selects) (pairTree []).read =
      .ok { pairCatalog ∅ .found with entries := [firstEntry] } := by
    rcases hchosen ((endingIn 'a').map Glob.selects) (List.cons_ne_nil _ _) with
      ⟨e, he, -⟩ | ⟨c, hc, hkeep⟩
    · simp [hwhole] at he
    · rw [hwhole] at hc
      rw [hkeep, ← Except.ok.inj hc, hkept]
  have hfirst : firstEntry ∈ (pairCatalog ∅ .found).entries := by
    obtain ⟨c₁, c₂, -, hc₂, hmem⟩ := heither ((endingIn 'b').map Glob.selects)
      ((endingIn 'a').map Glob.selects) (List.cons_ne_nil _ _) (List.cons_ne_nil _ _) _ hboth
    rw [hone] at hc₂
    refine (hmem _).mpr (.inr ?_)
    rw [← Except.ok.inj hc₂]
    exact List.mem_singleton_self firstEntry
  refine ⟨(hglobs _).trans hone, ?_, ⟨_, ?_, hfirst, hnodup _ _ hboth⟩,
    fun g hg => ⟨hskips g hg, ?_⟩⟩
  · rw [hglobs, hglobs, List.map_append, List.map_append]
    exact hsame _ _ (by simp [or_comm])
  · rw [hglobs, List.map_append, hboth]
  · obtain ⟨hglobs, -, -, -, -, hmalformed⟩ :=
      pairRequest.collect_by_filters (fun _ => .ok (Utf8.encode Header.brokenHeader))
    rw [hglobs]
    exact hmalformed _ [] _ _ _ htext hblocks (by simp) (by decide +kernel) _

end Request

end HeaderCards
