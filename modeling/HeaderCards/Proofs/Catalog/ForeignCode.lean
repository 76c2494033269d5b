import HeaderCards.Proofs.Catalog.Documentation
import HeaderCards.Proofs.Collection.OwnCard
import HeaderCards.Proofs.Card.RoundTrip
import HeaderCards.Proofs.Header.Listing

/-!
# The code of a foreign block

When the comment lines of the documentation are left out of a foreign block, what remains are the
declarations of the functions, and these come from their prototypes. So no card can change the
code, and neither can it fail the block.
-/

namespace HeaderCards

open Text (OneLine)

/-- The lines of a text that are no comment lines of documentation. Lines end at line feeds, and
a carriage return stays on its line. -/
def codeLines (t : Text) : List Text :=
  (t.splitOn '\n').filter (!Text.startsWith · "    ///")

@[simp] theorem codeLines_nil : codeLines [] = [[]] := by decide

/-- A line feed separates the lines on either side. -/
theorem codeLines_append_cons (a b : Text) :
    codeLines (a ++ '\n' :: b) = codeLines a ++ codeLines b := by
  have hsplit : (a ++ '\n' :: b).splitOn '\n' = a.splitOn '\n' ++ b.splitOn '\n' :=
    List.splitOnP_append_cons a b (beq_self_eq_true '\n')
  rw [codeLines, hsplit, List.filter_append]
  rfl

/-- The code of written lines is that of each of them, and an empty line behind the last. -/
theorem codeLines_unlines (ls : List Text) :
    codeLines (Text.unlines ls) = ls.flatMap codeLines ++ [[]] := by
  induction ls with
  | nil => simp
  | cons l ls ih =>
    rw [Text.unlines_cons, codeLines_append_cons, ih, List.flatMap_cons, List.append_assoc]

/-- A comment line of documentation holds no code. -/
theorem codeLines_commentLine {l : Text} (h : OneLine l) :
    codeLines (Binding.commentLine l) = [] := by
  rw [codeLines, List.splitOn_eq_singleton (Binding.oneLine_commentLine h),
    List.filter_cons_of_neg (by simpa using Binding.isPrefix_commentLine l), List.filter_nil]

/-- The declaration of a function says nothing of its card. -/
theorem Binding.declaration_bare (b : Binding) : b.bare.declaration = b.declaration := by
  rw [declaration, declaration, bare, List.map_map]
  rfl

/-- The code of a function is its declaration. -/
theorem Binding.flatMap_codeLines_lines {b : Binding} (h : ∀ l ∈ b.documentation, OneLine l) :
    b.lines.flatMap codeLines = b.bare.declaration.flatMap codeLines := by
  have hcomments : (b.documentation.map commentLine).flatMap codeLines = [] := by
    rw [List.flatMap_map, List.flatMap_eq_nil_iff]
    exact fun l hl => codeLines_commentLine (h l hl)
  rw [lines, List.flatMap_append, hcomments, List.nil_append, declaration_bare]

/-- Mapping the parts of a joined list maps what is between them, too. -/
theorem flatMap_intercalate {α β : Type} (g : α → List β) (sep : List α) (xss : List (List α)) :
    (List.intercalate sep xss).flatMap g =
      List.intercalate (sep.flatMap g) (xss.map (List.flatMap g)) := by
  induction xss with
  | nil => rfl
  | cons xs xss ih =>
    cases xss with
    | nil => simp
    | cons ys xss =>
      simp only [List.intercalate_cons_cons, List.flatMap_append, ih, List.map_cons]

/-- The code of the block depends on nothing but the bindings without their documentation. -/
theorem codeLines_foreignBlock_congr (header : Text) {bs₁ bs₂ : List Binding}
    (hbare : bs₁.map Binding.bare = bs₂.map Binding.bare)
    (h₁ : ∀ b ∈ bs₁, ∀ l ∈ b.documentation, OneLine l)
    (h₂ : ∀ b ∈ bs₂, ∀ l ∈ b.documentation, OneLine l) :
    codeLines (Text.unlines (foreignBlock header bs₁)) =
      codeLines (Text.unlines (foreignBlock header bs₂)) := by
  have hcode {bs : List Binding} (h : ∀ b ∈ bs, ∀ l ∈ b.documentation, OneLine l) :
      (bs.map Binding.lines).map (List.flatMap codeLines) =
        (bs.map Binding.bare).map fun b => b.declaration.flatMap codeLines := by
    rw [List.map_map, List.map_map]
    exact List.map_congr_left fun b hb => Binding.flatMap_codeLines_lines (h b hb)
  simp only [codeLines_unlines, foreignBlock, List.flatMap_append, flatMap_intercalate, hcode h₁,
    hcode h₂, hbare]

/-- No binding of a catalog holds a line feed when no entry does. -/
theorem Catalog.unbroken_of_mem_bindings {c : Catalog} (h : ∀ e ∈ c.entries, e.Unbroken)
    {bs : List Binding} (hbs : c.bindings = .ok bs) : ∀ b ∈ bs, b.Unbroken := by
  intro b hb
  obtain ⟨e, he, hbind⟩ := exists_of_mem_mapM hbs hb
  exact (h e he).bind (mapError_eq_ok_iff.mp hbind)

/-- The documentation of every binding of a catalog fits on its lines. -/
theorem Catalog.oneLine_documentation {c : Catalog} (h : ∀ e ∈ c.entries, e.Unbroken)
    {bs : List Binding} (hbs : c.bindings = .ok bs) :
    ∀ b ∈ bs, ∀ l ∈ b.documentation, OneLine l :=
  fun b hb => (unbroken_of_mem_bindings h hbs b hb).oneLine_documentation

/-- No name and no text that has been read from a header or a card holds a line feed. -/
theorem Request.unbroken_of_mem_collect {q : Request} {read : FileReader} {c : Catalog}
    (h : q.collect read = .ok c) {e : Entry} (he : e ∈ c.entries) : e.Unbroken := by
  constructor
  · obtain ⟨t, ps, ht, hp⟩ := exists_of_mem_collect h he
    obtain ⟨-, l, rest, -, -, hread⟩ := (Header.of_mem_prototypes ht).2 e.prototype hp
    exact fun a ha => (Declaration.solid_name_of_read hread a ha).not_mem (by decide)
  · rw [eq_entry_of_mem_collect h he, entry]
    cases hd : q.description read e.prototype.name with
    | error e => simp [Description.texts, EmptyCollection.emptyCollection]
    | ok d =>
      obtain ⟨folder, bytes, -, -, hcard⟩ := description_eq_ok_iff.mp hd
      exact Card.oneLine_of_readAs hcard

/-- No card can change the code of a foreign block. Two catalogs of the same functions of a header
fail with the same error, or make blocks that differ in comment lines of documentation only,
provided that no name of an argument and no text of a card holds a line feed. No name and no
text that has been read from files does. -/
theorem Catalog.codeLines_foreignBlock :
    (∀ c₁ c₂ : Catalog, c₁.family = c₂.family → c₁.header = c₂.header →
      c₁.entries.map (·.prototype) = c₂.entries.map (·.prototype) →
      (∀ e ∈ c₁.entries, e.Unbroken) → (∀ e ∈ c₂.entries, e.Unbroken) →
      (∃ e, c₁.foreignBlock = .error e ∧ c₂.foreignBlock = .error e) ∨
      ∃ t₁ t₂, c₁.foreignBlock = .ok t₁ ∧ c₂.foreignBlock = .ok t₂ ∧
        codeLines t₁ = codeLines t₂) ∧
    ∀ (q : Request) (read : FileReader) (c : Catalog), q.collect read = .ok c →
      ∀ e ∈ c.entries, e.Unbroken := by
  refine ⟨?_, fun q read c h e he => Request.unbroken_of_mem_collect h he⟩
  intro c₁ c₂ hfamily hheader hprototypes h₁ h₂
  have hbare : c₁.bindings.map (List.map Binding.bare) =
      c₂.bindings.map (List.map Binding.bare) := by
    rw [map_bare_bindings, map_bare_bindings, bare_eq hfamily hheader hprototypes]
  rw [foreignBlock, foreignBlock]
  cases hbs₁ : c₁.bindings with
  | error e =>
    rw [hbs₁] at hbare
    obtain ⟨e', he'⟩ : ∃ e', c₂.bindings = .error e' := by
      cases hbs₂ : c₂.bindings with
      | error e' => exact ⟨e', rfl⟩
      | ok bs₂ => simp [hbs₂] at hbare
    rw [he'] at hbare ⊢
    cases hbare
    exact Or.inl ⟨e, rfl, rfl⟩
  | ok bs₁ =>
    rw [hbs₁, map_ok] at hbare
    obtain ⟨bs₂, hbs₂, hsame⟩ := map_eq_ok_iff.mp hbare.symm
    rw [hbs₂, ← hheader]
    exact Or.inr ⟨_, _, rfl, rfl, codeLines_foreignBlock_congr c₁.header hsame.symm
      (oneLine_documentation h₁ hbs₁) (oneLine_documentation h₂ hbs₂)⟩

/-- A catalog of one function with an entry for it. -/
def soleCatalog (d : Description) (status : CardStatus) : Catalog :=
  ⟨.lapack, "/usr/include/lapacke.h",
    [⟨⟨"LAPACKE_a", "lapack_int", [⟨"double*", "self"⟩, ⟨"lapack_int", "info"⟩]⟩, d, status⟩]⟩

/-- A description whose texts read like code and like the ends of comments and fences. -/
def codeLikeDescription : Description where
  purpose := ["  ) -> i32;".toList, "\x7d".toList, "    pub fn b(".toList]
  notes := [⟨"SELF".toList, .both, ["*/ fn c() \x7b\x7d".toList, "".toList]⟩,
    ⟨"INFO".toList, .output, ["".toList, "    ) -> i64;\r".toList]⟩]
  remarks := ["```".toList, "extern \"C\" \x7b".toList]

/-- Texts that read like code leave the block with the code it has when no card was found. -/
theorem Catalog.codeLines_foreignBlock_of_codeLike :
    ((∀ e ∈ (soleCatalog ∅ (.missing "none")).entries, e.Unbroken) ∧
      ∀ e ∈ (soleCatalog codeLikeDescription .found).entries, e.Unbroken) ∧
    ∃ t₁ t₂, (soleCatalog ∅ (.missing "none")).foreignBlock = .ok t₁ ∧
      (soleCatalog codeLikeDescription .found).foreignBlock = .ok t₂ ∧
        t₁ ≠ t₂ ∧ codeLines t₁ = codeLines t₂ := by
  have hplain : ∀ e ∈ (soleCatalog ∅ (.missing "none")).entries, e.Unbroken := by decide +kernel
  have hlike : ∀ e ∈ (soleCatalog codeLikeDescription .found).entries, e.Unbroken := by
    decide +kernel
  have hdiffer : (soleCatalog ∅ (.missing "none")).foreignBlock ≠
      (soleCatalog codeLikeDescription .found).foreignBlock := by
    decide +kernel
  refine ⟨⟨hplain, hlike⟩, ?_⟩
  rcases codeLines_foreignBlock.1 (soleCatalog ∅ (.missing "none"))
      (soleCatalog codeLikeDescription .found) rfl rfl rfl hplain hlike with
    ⟨e, h₁, h₂⟩ | ⟨t₁, t₂, h₁, h₂, hcode⟩
  · exact absurd (h₁.trans h₂.symm) hdiffer
  · refine ⟨t₁, t₂, h₁, h₂, ?_, hcode⟩
    rintro rfl
    exact hdiffer (h₁.trans h₂.symm)

end HeaderCards
