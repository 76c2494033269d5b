import HeaderCards.Proofs.Header.Concatenation

/-!
# The region of a kernel header

Of a kernel header only the lines between the two markers count. What stands in front of the
first marker or behind the second one makes no difference, and the first marker itself is
passed over like any line on which no declaration begins.
-/

namespace HeaderCards.Header

/-- The declaration lines of a kernel header are its first marker and, without the banners, the
lines up to the second one. -/
theorem declarationLines_of_region {t : Text} {pre body post : List Text}
    (ht : (Text.lines t).map Text.trim = pre ++ regionStart :: (body ++ regionEnd :: post))
    (hpre : regionStart ∉ pre) (hbody : regionEnd ∉ body) :
    declarationLines .blas t = regionStart :: body.filter (!Text.startsWith · banner) := by
  have hstart : regionStart ∈ (Text.lines t).map Text.trim := by
    rw [ht]
    exact List.mem_append_right pre (List.mem_cons_self ..)
  have hfront : ∀ l ∈ pre, decide (l ≠ regionStart) = true :=
    fun l hl => decide_eq_true fun he => hpre (he ▸ hl)
  have hdrop : (pre ++ regionStart :: (body ++ regionEnd :: post)).dropWhile (· ≠ regionStart) =
      regionStart :: (body ++ regionEnd :: post) :=
    (Text.span_append hfront (by simp)).2
  have hinside : ∀ l ∈ regionStart :: body, decide (l ≠ regionEnd) = true := by
    intro l hl
    rcases List.mem_cons.mp hl with rfl | hl
    · decide
    · exact decide_eq_true fun he => hbody (he ▸ hl)
  have htake : (regionStart :: body ++ regionEnd :: post).takeWhile (· ≠ regionEnd) =
      regionStart :: body :=
    (Text.span_append hinside (by simp)).1
  rw [declarationLines, if_pos hstart, ht, hdrop, ← List.cons_append, htake,
    List.filter_cons_of_pos (by decide)]

/-- No declaration begins on the first marker. -/
theorem foldlM_step_regionStart (ls : List Text) :
    (regionStart :: ls).foldlM (Scan.step .blas) {} = ls.foldlM (Scan.step .blas) {} := by
  have hstep : Scan.step .blas {} regionStart = .ok {} := by decide +kernel
  rw [List.foldlM_cons, hstep, ok_bind]

/-- A kernel header declares what the lines between its markers declare on their own, with the
same errors. A declaration that is open at the second marker stays open. -/
theorem prototypes_of_region {t u : Text} {pre post : List Text} {start stop : Text}
    (ht : Text.lines t = pre ++ start :: (Text.lines u ++ stop :: post))
    (hstart : Text.trim start = regionStart) (hstop : Text.trim stop = regionEnd)
    (hpre : ∀ l ∈ pre, Text.trim l ≠ regionStart)
    (hbody : ∀ l ∈ Text.lines u, Text.trim l ≠ regionStart ∧ Text.trim l ≠ regionEnd) :
    prototypes .blas t = prototypes .blas u ∧
      ∀ s, (declarationLines .blas u).foldlM (Scan.step .blas) {} = .ok s → s.pending ≠ [] →
        prototypes .blas t = .error (.unterminated s.pending.reverse.flatten) := by
  have htrim : (Text.lines t).map Text.trim = pre.map Text.trim ++
      regionStart :: ((Text.lines u).map Text.trim ++ regionEnd :: post.map Text.trim) := by
    rw [ht]
    simp [hstart, hstop]
  have hpre' : regionStart ∉ pre.map Text.trim := by
    intro hmem
    obtain ⟨l, hl, he⟩ := List.mem_map.mp hmem
    exact hpre l hl he
  have hbody' : regionEnd ∉ (Text.lines u).map Text.trim := by
    intro hmem
    obtain ⟨l, hl, he⟩ := List.mem_map.mp hmem
    exact (hbody l hl).2 he
  have hdeclared : declared .blas (declarationLines .blas t) =
      declared .blas (declarationLines .blas u) := by
    rw [declarationLines_of_region htrim hpre' hbody', declarationLines_blas fun _ => hbody,
      declared, declared, foldlM_step_regionStart]
  refine ⟨by rw [prototypes, prototypes, hdeclared], fun s hs hopen => ?_⟩
  have hfinish : Scan.finish s = .error (.unterminated s.pending.reverse.flatten) := by
    simp [Scan.finish, hopen]
  rw [prototypes, hdeclared, declared, hs, ok_bind, hfinish, map_error]

/-- A declaration that is closed. -/
def closedBody : Text := "void cblas_a(int n,\n  float\n  *b);\n"

/-- A declaration that is still open. -/
def openBody : Text := "void cblas_a(int n,\n"

/-- A kernel header with an unreadable declaration in front of the first marker. What follows the
second marker has the name of the declaration between the markers, and would close it. -/
def markedHeader (body : Text) : Text :=
  "void cblas_b(, );\r\n/*** BFLOAT16 and INT8 extensions ***/\n" ++
    " typedef CBLAS_ORDER CBLAS_LAYOUT;\r\n" ++ body ++
      "/*** BFLOAT16 and INT8 extensions ***/\nvoid cblas_a(int m);\n"

/-- Between the markers the closed declaration is read and the open one is not closed. -/
theorem prototypes_of_markedHeader :
    prototypes .blas (markedHeader closedBody) =
      .ok [⟨"cblas_a", "void", [⟨"int", "n"⟩, ⟨"float*", "b"⟩]⟩] ∧
    prototypes .blas (markedHeader openBody) = .error (.unterminated "void cblas_a(int n,") := by
  have hlines : ∀ body ∈ [closedBody, openBody], Text.lines (markedHeader body) =
      ["void cblas_b(, );".toList, regionEnd] ++ " typedef CBLAS_ORDER CBLAS_LAYOUT;".toList ::
        (Text.lines body ++ regionEnd :: ["void cblas_a(int m);".toList]) := by
    decide +kernel
  have hregion : ∀ body ∈ [closedBody, openBody], ∀ l ∈ Text.lines body,
      Text.trim l ≠ regionStart ∧ Text.trim l ≠ regionEnd := by
    decide +kernel
  have hclosed : prototypes .blas closedBody =
      .ok [⟨"cblas_a", "void", [⟨"int", "n"⟩, ⟨"float*", "b"⟩]⟩] := by
    decide +kernel
  obtain ⟨hsame, -⟩ := prototypes_of_region (hlines closedBody (by simp)) (by decide +kernel)
    (by decide +kernel) (by decide +kernel) (hregion closedBody (by simp))
  obtain ⟨-, hopen⟩ := prototypes_of_region (hlines openBody (by simp)) (by decide +kernel)
    (by decide +kernel) (by decide +kernel) (hregion openBody (by simp))
  exact ⟨hsame.trans hclosed,
    hopen ⟨["void cblas_a(int n,".toList], []⟩ (by decide +kernel) (by simp)⟩

end HeaderCards.Header
