import HeaderCards.Proofs.Binding.Bare
import HeaderCards.Proofs.Collection.OwnCard
import HeaderCards.Proofs.Header.Listing

/-!
# What the opening line tells

A declaration is recognised by its first line, while its return type and its name are looked for
in the text of all its lines, which is mended before. The words found there are those of the
first line. A solver returns the type with which its first line begins, so its return value has
a binding type whatever its arguments are. A kernel has the name by which its first line was
recognised, unless the word in front of this name has a parenthesis.
-/

namespace HeaderCards

/-- Where the return value has a binding type, only an argument can keep a prototype from being
bound. -/
theorem Prototype.bind_of_returnType {p : Prototype} {f : Family} {result : BindingType}
    (h : f.returnType p.returnType p.name = .ok result) (d : Description) :
    (∃ b, p.bind f d = .ok b ∧ b.result = result) ∨
      ∃ a ∈ p.arguments, ∃ e, f.argumentType a = .error e ∧ p.bind f d = .error e := by
  rw [Prototype.bind, h]
  cases harguments : (p.pair f d).mapM (Pairing.bind f) with
  | ok as => exact Or.inl ⟨_, rfl, rfl⟩
  | error e =>
    obtain ⟨before, q, after, hpair, -, hq⟩ := exists_of_mapM_eq_error harguments
    have hmem : q ∈ p.pair f d := by simp [hpair]
    exact Or.inr ⟨q.argument, (Prototype.of_mem_pair hmem).1, e, map_eq_error_iff.mp hq, rfl⟩

namespace Header

open Declaration

/-- The prototypes of a solver header return what the opening of a solver begins with. -/
theorem returnType_of_mem_prototypes {t : Text} {ps : List Prototype}
    (h : prototypes .lapack t = .ok ps) {p : Prototype} (hp : p ∈ ps) :
    p.returnType = "lapack_int" := by
  obtain ⟨-, horigin⟩ := of_mem_prototypes h
  obtain ⟨-, l, rest, -, hopens, hread⟩ := horigin p hp
  exact returnType_of_opens_lapack hopens hread

/-- The call by which a kernel is recognised is the first one of the declaration, whatever its
further lines are, unless a parenthesis stands in front of the name. -/
theorem name_of_opensKernel {first ret gap stem : Text} {rest : List Text} {p : Prototype}
    (hopens : OpensKernel first ret gap stem) (hret : '(' ∉ ret)
    (h : Declaration.read (first :: rest) = .ok p) : p.name = Family.blas.opening ++ stem := by
  have hwhole : OpensKernel (first :: rest).flatten ret gap stem := hopens.append rest.flatten
  obtain ⟨-, hname, -⟩ := read_eq_ok_iff.mp h
  -- the text is cut at its end only, so its name is found in front of the cut
  obtain ⟨c, cs, hcons⟩ : ∃ c cs, (first :: rest).flatten = c :: cs := by
    obtain ⟨-, -, -, -, after, behind, -, hflat⟩ := id hwhole
    exact List.exists_cons_of_ne_nil (by simp [hflat])
  obtain ⟨cut, hcut⟩ := isPrefix_textOf hcons (hwhole.visible c (by simp [hcons]))
  have hmended := functionName?_append hname cut
  rw [hcut] at hmended
  obtain ⟨-, ⟨hgap, hblank⟩, -⟩ := id hopens
  obtain ⟨front, w, rfl⟩ := (List.eq_nil_or_concat gap).resolve_left hgap
  rw [List.concat_eq_append, Text.isBlank_append, Bool.and_eq_true] at hblank
  have hspace : Text.isSpace w = true := by simpa using hblank.2
  have hopen : '(' ∉ mend ret ++ front := by
    rw [List.mem_append, not_or]
    refine ⟨fun hm => hret (mem_of_mem_mend (by decide) hm), fun hm => ?_⟩
    exact absurd (List.all_eq_true.mp hblank.1 '(' hm) (by decide)
  have hcalls := hwhole.calls_mend
  rw [List.concat_eq_append, ← List.append_assoc] at hcalls
  rw [functionName?_of_calls hspace hopen hcalls] at hmended
  exact (Option.some.inj hmended).symm

/-- The words that are extracted are those of the opening line. The prototypes of a solver header
return what the opening begins with, and when its functions are collected, an entry is bound
unless one of its arguments has an unknown type. The prototypes of a kernel header come from its
blocks, and where no parenthesis stands in the first word of a block, the name of its prototype is
the one by which its first line was recognised. -/
theorem extracted_from_openings :
    (∀ t ps, prototypes .lapack t = .ok ps → ∀ p ∈ ps, p.returnType = "lapack_int") ∧
    (∀ (q : Request) (read : FileReader) (c : Catalog), q.family = .lapack →
      q.collect read = .ok c → ∀ e ∈ c.entries,
        (∃ b, e.bind .lapack = .ok b ∧ b.result = .info) ∨
          ∃ a ∈ e.prototype.arguments, ∃ err,
            Family.lapack.argumentType a = .error err ∧ e.bind .lapack = .error err) ∧
    ∀ t ps, prototypes .blas t = .ok ps →
      (∀ p ∈ ps, ∃ block ∈ blocks .blas (declarationLines .blas t),
        Declaration.read block = .ok p) ∧
      ∀ block ∈ blocks .blas (declarationLines .blas t), ∃ first rest p,
        block = first :: rest ∧ Declaration.read block = .ok p ∧
        (∃ ret gap stem, OpensKernel first ret gap stem) ∧
        ∀ ret gap stem, OpensKernel first ret gap stem → '(' ∉ ret →
          p.name = Family.blas.opening ++ stem := by
  refine ⟨fun t ps h p => returnType_of_mem_prototypes h, ?_, ?_⟩
  · intro q read c hfamily hcollect e he
    obtain ⟨t, ps, hps, hmem⟩ := Request.exists_of_mem_collect hcollect he
    rw [hfamily] at hps
    apply Prototype.bind_of_returnType
    rw [returnType_of_mem_prototypes hps hmem]
    rfl
  · intro t ps h
    obtain ⟨qs, hqs, -, rfl⟩ := prototypes_eq_ok_iff.mp h
    constructor
    · intro p hp
      apply exists_of_mem_mapM (mapM_eq_ok_iff.mpr hqs)
      exact (List.mem_filter.mp ((Prototype.distinct_sublist _).subset hp)).1
    · intro block hblock
      obtain ⟨p, -, hread⟩ : ∃ p ∈ qs, Declaration.read block = .ok p := by
        have hmem := List.mem_map_of_mem (f := Declaration.read) hblock
        rw [hqs] at hmem
        obtain ⟨p, hp, hread⟩ := List.mem_map.mp hmem
        exact ⟨p, hp, hread.symm⟩
      obtain ⟨before, first, rest, behind, -, rfl, hopens, -⟩ := exists_split_of_mem_blocks hblock
      exact ⟨first, rest, p, rfl, hread, opensKernel_iff.mp hopens,
        fun ret gap stem hkernel hret => name_of_opensKernel hkernel hret hread⟩

/-- A solver header whose second function has an argument of an unknown type. -/
def solverHeader : Text :=
  "lapack_int LAPACKE_a(int n,\n  float*b);\nlapack_int LAPACKE_b(mystery x);\n"

/-- What to collect from the solver header. -/
def solverRequest : Request := { header := "l.h", family := .lapack }

/-- The functions of the solver header, for which there are no cards. -/
def solverCatalog : Catalog :=
  ⟨.lapack, "l.h",
    [⟨⟨"LAPACKE_a", "lapack_int", [⟨"int", "n"⟩, ⟨"float*", "b"⟩]⟩, ∅,
        .missing "no documentation directory"⟩,
      ⟨⟨"LAPACKE_b", "lapack_int", [⟨"mystery", "x"⟩]⟩, ∅,
        .missing "no documentation directory"⟩]⟩

/-- A kernel declaration whose first word is mended and whose name precedes white space. -/
def mendedBlock : List Text := ["float*b\tcblas_a (int n,".toList, "float*b);".toList]

/-- Both solvers return what they have to, so that only the unknown type is a problem; and the
kernel has the name on its first line although the word in front of it is mended. -/
theorem extracted_from_solvers_and_kernel :
    (prototypes .lapack solverHeader = .ok (solverCatalog.entries.map (·.prototype)) ∧
      ∀ e ∈ solverCatalog.entries, e.prototype.returnType = "lapack_int") ∧
    (∀ e ∈ solverCatalog.entries, (∃ b, e.bind .lapack = .ok b ∧ b.result = .info) ∨
      ∃ a ∈ e.prototype.arguments, ∃ err,
        Family.lapack.argumentType a = .error err ∧ e.bind .lapack = .error err) ∧
    prototypes .blas (Text.unlines mendedBlock) =
      .ok [⟨"cblas_a", "float", [⟨"int", "n"⟩, ⟨"float*", "b"⟩]⟩] ∧
    ∃ p, Declaration.read mendedBlock = .ok p ∧ p.name = "cblas_a" := by
  obtain ⟨hreturn, hbind, hname⟩ := extracted_from_openings
  have hsolvers : prototypes .lapack solverHeader =
      .ok (solverCatalog.entries.map (·.prototype)) := by
    decide +kernel
  have hcollect : solverRequest.collect (fun _ => .ok (Utf8.encode solverHeader)) =
      .ok solverCatalog := by
    decide +kernel
  have hkernel : prototypes .blas (Text.unlines mendedBlock) =
      .ok [⟨"cblas_a", "float", [⟨"int", "n"⟩, ⟨"float*", "b"⟩]⟩] := by
    decide +kernel
  have hblock : mendedBlock ∈ blocks .blas (declarationLines .blas (Text.unlines mendedBlock)) := by
    decide +kernel
  have hopens : OpensKernel "float*b\tcblas_a (int n," "float*b" "\t" "a" := by
    have hword : ∀ c ∈ "a".toList, Text.isWord c = true := List.all_eq_true.mp (by decide +kernel)
    exact ⟨⟨by decide, by decide⟩, ⟨by decide, by decide⟩, ⟨by decide, hword⟩,
      isIdentifier_opening_append hword, " ", "int n,", rfl, rfl⟩
  refine ⟨⟨hsolvers, fun e he => hreturn _ _ hsolvers _ (List.mem_map_of_mem he)⟩,
    hbind solverRequest _ _ rfl hcollect, hkernel, ?_⟩
  obtain ⟨-, hblocks⟩ := hname _ _ hkernel
  obtain ⟨first, rest, p, heq, hread, -, hcalled⟩ := hblocks _ hblock
  obtain ⟨rfl, -⟩ := List.cons.inj heq
  exact ⟨p, hread, hcalled _ _ _ hopens (by decide)⟩

end Header

end HeaderCards
