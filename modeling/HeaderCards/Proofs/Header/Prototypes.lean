import HeaderCards.Proofs.Header.Blocks
import HeaderCards.Proofs.Prototype.Distinct
import Mathlib.Control.Monad.Basic
import Mathlib.Data.List.Nodup

/-!
# What a header declares

The prototypes of a header are determined by its blocks. The first block that cannot be
read fails the header, whatever follows it. When all blocks can be read, an unfinished rest
fails the header, and otherwise the supported prototypes are returned in order, of each
name the first.
-/

namespace HeaderCards.Header

/-- The functions of a family that have a binding: those without a variable argument list
and, among solvers, without a caller's work space and without a selection function. -/
def Supported (f : Family) (p : Prototype) : Prop :=
  (∀ a ∈ p.arguments, a.name ≠ "...") ∧
    (f = .lapack → ¬ ("_work" : Text) <:+ p.name ∧
      ∀ a ∈ p.arguments, ¬ ("SELECT" : Text) <:+: a.type)

/-- The check made of a prototype decides whether it is supported. -/
theorem isSupported_iff {f : Family} {p : Prototype} :
    isSupported f p = true ↔ Supported f p := by
  cases f with
  | blas => simp [isSupported, Supported]
  | lapack =>
    simp only [isSupported, Supported, Bool.and_eq_true, List.all_eq_true, decide_eq_true_eq,
      Bool.not_eq_true', ← Bool.not_eq_true, Text.endsWith_iff, Text.includes_iff, forall_const,
      and_assoc]

instance (f : Family) (p : Prototype) : Decidable (Supported f p) :=
  decidable_of_iff _ isSupported_iff

/-- The prototypes of a header in terms of its blocks. -/
theorem prototypes_eq_blocks (f : Family) (t : Text) :
    prototypes f t = (blocks f (declarationLines f t)).mapM Declaration.read >>= fun ps =>
      if unfinished f (declarationLines f t) = [] then
        .ok (Prototype.distinct (ps.filter (Supported f ·)))
      else .error (.unterminated (unfinished f (declarationLines f t)).flatten) := by
  have hfilter (ps : List Prototype) : ps.filter (isSupported f) = ps.filter (Supported f ·) := by
    congr 1
    funext p
    rw [Bool.eq_iff_iff, isSupported_iff, decide_eq_true_iff]
  rw [prototypes, declared_eq_blocks]
  cases (blocks f (declarationLines f t)).mapM Declaration.read with
  | error e => rfl
  | ok ps =>
    simp only [ok_bind]
    split
    · rw [map_ok, hfilter]
    · rfl

/-- A header can be read when each of its blocks can and nothing is left unfinished. -/
theorem prototypes_eq_ok_iff {f : Family} {t : Text} {qs : List Prototype} :
    prototypes f t = .ok qs ↔
      ∃ ps : List Prototype, (blocks f (declarationLines f t)).map Declaration.read = ps.map .ok ∧
        unfinished f (declarationLines f t) = [] ∧
        Prototype.distinct (ps.filter (Supported f ·)) = qs := by
  rw [prototypes_eq_blocks, bind_eq_ok_iff]
  refine exists_congr fun ps => and_congr mapM_eq_ok_iff ?_
  split
  · next hrest => simp [hrest]
  · next hrest => simp [hrest]

/-- The first block that cannot be read fails the header. When every block can be read, an
unfinished rest fails the header, and without one the supported prototypes are returned in
order, the later ones of each name erased, so that each supported name is returned exactly
once. -/
theorem prototypes_of_blocks (f : Family) (t : Text) :
    (∀ before block after e,
      blocks f (declarationLines f t) = before ++ block :: after →
      (∀ b ∈ before, ∃ p, Declaration.read b = .ok p) → Declaration.read block = .error e →
      prototypes f t = .error e) ∧
    ∀ ps : List Prototype, (blocks f (declarationLines f t)).map Declaration.read = ps.map .ok →
      (unfinished f (declarationLines f t) ≠ [] →
        prototypes f t =
          .error (.unterminated (unfinished f (declarationLines f t)).flatten)) ∧
      (unfinished f (declarationLines f t) = [] →
        ∃ qs, prototypes f t = .ok qs ∧
          qs = (ps.filter (Supported f ·)).eraseDupsBy (·.name == ·.name) ∧
          (qs.map (·.name)).Nodup ∧
          (∀ n, qs.find? (·.name = n) = (ps.filter (Supported f ·)).find? (·.name = n)) ∧
          ∀ p ∈ ps, Supported f p → (qs.map (·.name)).count p.name = 1) := by
  rw [prototypes_eq_blocks]
  constructor
  · intro before block after e hblocks hbefore hblock
    rw [hblocks, mapM_eq_error hbefore hblock, error_bind]
  · intro ps hps
    rw [mapM_eq_ok_iff.mpr hps, ok_bind]
    constructor
    · intro hrest
      rw [if_neg hrest]
    · intro hrest
      refine ⟨_, if_pos hrest, Prototype.distinct_eq_eraseDupsBy _,
        Prototype.nodup_names_distinct _, fun n => Prototype.find?_distinct n _, ?_⟩
      intro p hp hsupported
      have hmem : p ∈ ps.filter (Supported f ·) := by simpa using ⟨hp, hsupported⟩
      exact List.count_eq_one_of_mem (Prototype.nodup_names_distinct _)
        (Prototype.mem_names_distinct hmem)

/-- A header with a wrapped block and a second one of the same name, closed properly. -/
def repeatedHeader : Text :=
  "lapack_int LAPACKE_a(int x,\n  float *b);\nlapack_int LAPACKE_a(int y);\n"

/-- The same header with a declaration left open behind it. -/
def openHeader : Text := repeatedHeader ++ "lapack_int LAPACKE_c(int x,\n"

/-- The open header with a block that cannot be read in front. -/
def brokenHeader : Text := "lapack_int LAPACKE_d(int x, );\n" ++ openHeader

/-- The three endings of a header at one example each. -/
theorem prototypes_of_repeated_open_broken :
    prototypes .lapack brokenHeader = .error (.emptyArgument "LAPACKE_d") ∧
    prototypes .lapack openHeader = .error (.unterminated "lapack_int LAPACKE_c(int x,") ∧
    ∃ qs, prototypes .lapack repeatedHeader = .ok qs ∧ (qs.map (·.name)).Nodup ∧
      (qs.map (·.name)).count "LAPACKE_a".toList = 1 := by
  have hread : ∀ t ∈ [openHeader, repeatedHeader],
      (blocks .lapack (declarationLines .lapack t)).map Declaration.read =
        [⟨"LAPACKE_a", "lapack_int", [⟨"int", "x"⟩, ⟨"float*", "b"⟩]⟩,
          ⟨"LAPACKE_a", "lapack_int", [⟨"int", "y"⟩]⟩].map .ok := by
    decide +kernel
  have hrest : unfinished .lapack (declarationLines .lapack openHeader) =
      ["lapack_int LAPACKE_c(int x,".toList] := by
    decide +kernel
  refine ⟨?_, ?_, ?_⟩
  · exact (prototypes_of_blocks .lapack brokenHeader).1 [] ["lapack_int LAPACKE_d(int x, );".toList]
      (blocks .lapack (declarationLines .lapack brokenHeader)).tail _ (by decide +kernel)
      (by simp) (by decide +kernel)
  · have hopen := ((prototypes_of_blocks .lapack openHeader).2 _ (hread _ (by simp))).1
      (by simp [hrest])
    rwa [hrest] at hopen
  · obtain ⟨qs, hqs, -, hnodup, -, hcount⟩ :=
      ((prototypes_of_blocks .lapack repeatedHeader).2 _ (hread _ (by simp))).2
        (by decide +kernel)
    exact ⟨qs, hqs, hnodup, hcount _ (List.mem_cons_self ..) (by decide +kernel)⟩

end HeaderCards.Header
