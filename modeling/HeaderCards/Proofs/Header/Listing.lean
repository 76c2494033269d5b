import HeaderCards.Catalog.Listing
import HeaderCards.Proofs.Header.Bounds
import HeaderCards.Proofs.Header.Prototypes
import HeaderCards.Proofs.Prototype.Printable
import HeaderCards.Proofs.Text.Lines

/-!
# Listings are headers

The listing of what a header declares is itself a header of the family, and declares the same.
Each line of it is a declaration line, a block on its own, and read back as it was; the
selection of supported functions and of distinct names then leaves all of them.
-/

namespace HeaderCards.Header

open Declaration

/-- A prototype of a header is supported, and was read from a block that begins with an opening
line. -/
theorem of_mem_prototypes {f : Family} {t : Text} {ps : List Prototype}
    (h : prototypes f t = .ok ps) :
    (ps.map (·.name)).Nodup ∧ ∀ p ∈ ps, Supported f p ∧
      ∃ l rest, l ∈ declarationLines f t ∧ opens f l = true ∧
        Declaration.read (l :: rest) = .ok p := by
  obtain ⟨qs, hqs, -, rfl⟩ := prototypes_eq_ok_iff.mp h
  refine ⟨Prototype.nodup_names_distinct _, fun p hp => ?_⟩
  obtain ⟨hmem, hsupported⟩ := List.mem_filter.mp ((Prototype.distinct_sublist _).subset hp)
  obtain ⟨block, hblock, hread⟩ := exists_of_mem_mapM (mapM_eq_ok_iff.mpr hqs) hmem
  obtain ⟨before, l, rest, behind, hlines, rfl, hopens, -⟩ := exists_split_of_mem_blocks hblock
  exact ⟨of_decide_eq_true hsupported, l, rest, by simp [hlines], hopens, hread⟩

/-- Solver declarations return the type with which their first line begins. -/
theorem returnType_of_opens_lapack {l : Text} {rest : List Text} {p : Prototype}
    (hopens : opens .lapack l = true) (h : Declaration.read (l :: rest) = .ok p) :
    p.returnType = "lapack_int" := by
  obtain ⟨-, -, hreturn, -⟩ := read_eq_ok_iff.mp h
  obtain ⟨s, rfl⟩ := Text.startsWith_iff.mp hopens
  have hsplit : (("lapack_int LAPACKE_".toList ++ s) :: rest).flatten =
      "lapack_int".toList ++ ' ' :: ("LAPACKE_".toList ++ (s ++ rest.flatten)) := by
    rw [List.flatten_cons, List.append_assoc]
    rfl
  have htype : mend "lapack_int" = "lapack_int".toList := by decide
  rw [hreturn, textOf, hsplit]
  rw [← mend, mend_append_cons (by decide), htype]
  exact returnType_trim (by decide) (by decide) _

/-- A line that opens a kernel declaration begins with a word. -/
theorem exists_of_opensKernel {l : Text} (h : opensKernel l = true) :
    ∃ c w b z, l = c :: w ++ b :: z ∧ Text.isSpace c = false ∧ Text.isSpace b = true := by
  obtain ⟨ret, gap, stem, ⟨hret, hsolid⟩, ⟨hgap, hblank⟩, -, -, after, behind, -, rfl⟩ :=
    opensKernel_iff.mp h
  obtain ⟨c, w, rfl⟩ := List.exists_cons_of_ne_nil hret
  obtain ⟨b, gap, rfl⟩ := List.exists_cons_of_ne_nil hgap
  rw [Text.isBlank_cons, Bool.and_eq_true] at hblank
  refine ⟨c, w, b, gap ++ ((Family.blas.opening ++ stem) ++ (after ++ '(' :: behind)), ?_,
    hsolid c (List.mem_cons_self ..), hblank.1⟩
  simp

/-- Kernel declarations do not return what opens like a banner. -/
theorem not_banner_of_opens_blas {l : Text} {rest : List Text} {p : Prototype}
    (hopens : opens .blas l = true) (hl : ¬ banner <+: l)
    (h : Declaration.read (l :: rest) = .ok p) : ¬ banner <+: p.returnType := by
  obtain ⟨-, -, hreturn, -⟩ := read_eq_ok_iff.mp h
  obtain ⟨c, w, b, z, rfl, hc, hb⟩ := exists_of_opensKernel hopens
  have hflat : ((c :: w ++ b :: z) :: rest).flatten = c :: (w ++ b :: (z ++ rest.flatten)) := by
    simp
  intro hbanner
  rw [hreturn] at hbanner
  have hfront := (hbanner.trans (of_returnType _).2).trans (isPrefix_textOf hflat hc)
  rw [hflat] at hfront
  have hunmended : banner <+: c :: w ++ b :: (z ++ rest.flatten) :=
    isPrefix_of_isPrefix_mend (by decide) hfront
  have hb' : b ∉ banner := (by decide : Text.Solid banner).not_mem hb
  have hfirst : banner <+: c :: w := Text.isPrefix_of_append_cons hb' hunmended
  exact hl (hfirst.trans (List.prefix_append ..))

/-- A printed declaration closes. -/
theorem closes_render (p : Prototype) : closes p.render = true := by
  obtain ⟨front, hfront⟩ := p.render_eq_append
  exact closes_of_isSuffix (by decide) ⟨front, hfront.symm⟩

/-- A kernel declaration opens with a word, a blank and the call of a kernel. -/
theorem opensKernel_of_call {a x : Text} (ha : a ≠ []) (hsolid : Text.Solid a) (hx : x ≠ [])
    (hword : ∀ c ∈ x, Text.isWord c = true) (t : Text) :
    opensKernel (a ++ ' ' :: (Family.blas.opening ++ x ++ '(' :: t)) = true := by
  refine opensKernel_iff.mpr ⟨a, [' '], x, ⟨ha, hsolid⟩, ⟨List.cons_ne_nil _ _, by decide⟩,
    ⟨hx, hword⟩, isIdentifier_opening_append hword, [], t, rfl, ?_⟩
  simp

/-- A printed declaration opens as one of its family. -/
theorem opens_render {f : Family} {p : Prototype} (hp : p.Printable) {x : Text} (hx : x ≠ [])
    (hname : p.name = f.opening ++ x) (hreturn : f = .lapack → p.returnType = "lapack_int") :
    opens f p.render = true := by
  rw [Prototype.render_eq]
  cases f with
  | lapack =>
    refine Text.startsWith_iff.mpr ⟨x ++ '(' :: (argumentText p.arguments ++ [')', ';']), ?_⟩
    rw [hreturn rfl, hname, List.append_assoc]
    rfl
  | blas =>
    have hword : ∀ c ∈ x, Text.isWord c = true := fun c hc =>
      hp.name.isWord c (hname ▸ List.mem_append_right _ hc)
    rw [hname]
    exact opensKernel_of_call hp.returnType.1 hp.returnType.2 hx hword _

/-- The lines of a listing are the declarations it was made of. -/
theorem declarationLines_listing {f : Family} {ps : List Prototype} (h : ∀ p ∈ ps, p.Printable)
    (hbanner : f = .blas → ∀ p ∈ ps, ¬ banner <+: p.returnType) :
    declarationLines f (listing ps) = ps.map Prototype.render := by
  have hlines : Text.lines (listing ps) = ps.map Prototype.render := by
    apply Text.lines_unlines
    intro l hl
    obtain ⟨p, hp, rfl⟩ := List.mem_map.mp hl
    obtain ⟨front, hfront⟩ := p.render_eq_append
    refine ⟨(h p hp).not_mem_render (by decide) (by decide), ?_⟩
    rw [hfront, List.getLast?_concat]
    exact fun he => absurd (Option.some.inj he) (by decide)
  cases f with
  | lapack => exact hlines
  | blas =>
    have hopening : ∀ p ∈ ps, '(' ∈ p.render := by
      intro p _
      rw [Prototype.render_eq]
      simp
    have hne : ∀ m : Text, '(' ∉ m → ∀ l ∈ ps.map Prototype.render, l ≠ m := by
      rintro m hm l hl rfl
      obtain ⟨p, hp, rfl⟩ := List.mem_map.mp hl
      exact hm (hopening p hp)
    have htrim : (ps.map Prototype.render).map Text.trim = ps.map Prototype.render := by
      rw [List.map_map]
      exact List.map_congr_left fun p hp =>
        Prototype.trim_render (h p hp).returnType.1 (h p hp).returnType.2
    have hstart : regionStart ∉ ps.map Prototype.render := fun hm =>
      hne regionStart (by decide) _ hm rfl
    have hend : (ps.map Prototype.render).takeWhile (· ≠ regionEnd) = ps.map Prototype.render :=
      List.takeWhile_eq_self_iff.mpr fun l hl => decide_eq_true (hne regionEnd (by decide) l hl)
    have hplain : (ps.map Prototype.render).filter (!Text.startsWith · banner) =
        ps.map Prototype.render := by
      refine List.filter_eq_self.mpr fun l hl => ?_
      obtain ⟨p, hp, rfl⟩ := List.mem_map.mp hl
      rw [Bool.not_eq_true', ← Bool.not_eq_true, Text.startsWith_iff, Prototype.render_eq]
      exact fun hi => hbanner rfl p hp (Text.isPrefix_of_append_cons (by decide) hi)
    rw [declarationLines, hlines, htrim]
    simp only [if_neg hstart]
    rw [hend, hplain]

/-- The listing of what a header declares declares the same, provided that the names are those
of the family and no return type has a parenthesis. In particular every line of it is read as
the prototype it was made of. -/
theorem prototypes_listing (f : Family) (t : Text) (ps : List Prototype)
    (h : prototypes f t = .ok ps)
    (hps : ∀ p ∈ ps, (∃ x, x ≠ [] ∧ p.name = f.opening ++ x) ∧ '(' ∉ p.returnType) :
    prototypes f (listing ps) = .ok ps ∧ ∀ p ∈ ps, Declaration.read [p.render] = .ok p := by
  obtain ⟨hnodup, horigin⟩ := of_mem_prototypes h
  have hprintable : ∀ p ∈ ps, p.Printable := by
    intro p hp
    obtain ⟨-, l, rest, -, -, hread⟩ := horigin p hp
    exact printable_of_read hread (hps p hp).2
  have hread : ∀ p ∈ ps, Declaration.read [p.render] = .ok p := fun p hp =>
    (hprintable p hp).read_render
  have hlines : declarationLines f (listing ps) = ps.map Prototype.render := by
    refine declarationLines_listing hprintable ?_
    rintro rfl p hp
    obtain ⟨-, l, rest, hl, hopens, hread⟩ := horigin p hp
    refine not_banner_of_opens_blas hopens ?_ hread
    have hkept := (List.mem_filter.mp hl).2
    rwa [Bool.not_eq_true', ← Bool.not_eq_true, Text.startsWith_iff] at hkept
  have hblocks : blocks f (ps.map Prototype.render) = (ps.map Prototype.render).map ([·]) ∧
      unfinished f (ps.map Prototype.render) = [] := by
    refine blocks_of_opens_closes fun l hl => ?_
    obtain ⟨p, hp, rfl⟩ := List.mem_map.mp hl
    obtain ⟨⟨x, hx, hname⟩, -⟩ := hps p hp
    refine ⟨opens_render (hprintable p hp) hx hname ?_, closes_render p⟩
    rintro rfl
    obtain ⟨-, l, rest, -, hopens, hread⟩ := horigin p hp
    exact returnType_of_opens_lapack hopens hread
  have hall : (blocks f (ps.map Prototype.render)).mapM Declaration.read = .ok ps := by
    rw [hblocks.1, mapM_eq_ok_iff, List.map_map, List.map_map]
    refine List.map_congr_left fun p hp => ?_
    rw [Function.comp_apply, Function.comp_apply, hread p hp]
  have hsupported : ps.filter (Supported f ·) = ps :=
    List.filter_eq_self.mpr fun p hp => decide_eq_true (horigin p hp).1
  refine ⟨?_, hread⟩
  rw [prototypes_eq_blocks, hlines, hall, ok_bind, if_pos hblocks.2, hsupported,
    Prototype.distinct_eq_self hnodup]

/-- A header whose declaration is wrapped within a type, so that the type has to be mended
whenever it is read. -/
def wrappedHeader : Text := "lapack_int LAPACKE_a(const float\n*b c, x);\n"

/-- What the wrapped header declares. -/
def wrappedPrototype : Prototype :=
  ⟨"LAPACKE_a", "lapack_int", [⟨"float*b", "c"⟩, ⟨"", "x"⟩]⟩

/-- The listing of the wrapped header declares the same. -/
theorem prototypes_listing_of_wrapped :
    prototypes .lapack wrappedHeader = .ok [wrappedPrototype] ∧
      prototypes .lapack (listing [wrappedPrototype]) = .ok [wrappedPrototype] ∧
        Declaration.read [wrappedPrototype.render] = .ok wrappedPrototype := by
  have hread : prototypes .lapack wrappedHeader = .ok [wrappedPrototype] := by decide +kernel
  have hprintable : ∀ p ∈ [wrappedPrototype],
      (∃ x, x ≠ [] ∧ p.name = Family.lapack.opening ++ x) ∧ '(' ∉ p.returnType := by
    intro p hp
    rw [List.mem_singleton.mp hp]
    exact ⟨⟨"a", by decide, by decide⟩, by decide⟩
  obtain ⟨hlisting, hrender⟩ :=
    prototypes_listing .lapack wrappedHeader [wrappedPrototype] hread hprintable
  exact ⟨hread, hlisting, hrender wrappedPrototype (List.mem_singleton_self _)⟩

end HeaderCards.Header
