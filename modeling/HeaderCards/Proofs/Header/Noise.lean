import HeaderCards.Proofs.Header.Layout

/-!
# Noise in kernel headers

The trimmed lines of a kernel header count unless they are empty or banners; the second marker,
which is written like a banner, counts too. Everything else is noise. The two markers are among
the lines that count, so the noise can be left out before the region between them is cut, and
what a header declares depends on its counted lines alone.
-/

namespace HeaderCards.Header

/-- The trimmed line is not empty, and it is no banner unless it is the second marker. -/
def Counts (l : Text) : Prop := l ≠ [] ∧ (banner <+: l → l = regionEnd)

instance (l : Text) : Decidable (Counts l) :=
  inferInstanceAs (Decidable (l ≠ [] ∧ (banner <+: l → l = regionEnd)))

/-- The trimmed lines of a kernel header that count. -/
def countedLines (t : Text) : List Text := ((Text.lines t).map Text.trim).filter (Counts ·)

theorem counts_regionStart : Counts regionStart :=
  ⟨by decide, fun h => absurd h (by decide)⟩

theorem counts_regionEnd : Counts regionEnd := ⟨by decide, fun _ => rfl⟩

/-- Among the lines that are no banners, all but the empty ones count. -/
theorem filter_counts_banner (ls : List Text) :
    (ls.filter (Counts ·)).filter (!Text.startsWith · banner) =
      (ls.filter (!Text.startsWith · banner)).filter (· ≠ []) := by
  rw [List.filter_filter, List.filter_filter]
  apply List.filter_congr
  intro l _
  by_cases hbanner : Text.startsWith l banner = true
  · simp [hbanner]
  · have hprefix : ¬ banner <+: l := mt Text.startsWith_iff.mpr hbanner
    simp [hbanner, Counts, hprefix]

/-- The lines from the first marker, if there is one, up to the second. -/
def region (ls : List Text) : List Text :=
  (if regionStart ∈ ls then ls.dropWhile (· ≠ regionStart) else ls).takeWhile (· ≠ regionEnd)

theorem declarationLines_eq_region (t : Text) :
    declarationLines .blas t =
      (region ((Text.lines t).map Text.trim)).filter (!Text.startsWith · banner) := rfl

/-- A marker that counts is met alike with and without the noise. -/
private theorem not_counts_or_ne {m : Text} (hm : Counts m) :
    (fun l => !decide (Counts l) || decide (l ≠ m)) = fun l : Text => decide (l ≠ m) := by
  funext l
  by_cases hl : l = m
  · subst hl
    simp [hm]
  · simp [hl]

/-- The region can be cut before the noise is left out, or behind. -/
theorem region_filter_counts (ls : List Text) :
    region (ls.filter (Counts ·)) = (region ls).filter (Counts ·) := by
  have hmem : regionStart ∈ ls.filter (Counts ·) ↔ regionStart ∈ ls := by
    simp [List.mem_filter, counts_regionStart]
  rw [region, region]
  by_cases hstart : regionStart ∈ ls
  · rw [if_pos (hmem.mpr hstart), if_pos hstart, List.dropWhile_filter, List.takeWhile_filter,
      not_counts_or_ne counts_regionStart, not_counts_or_ne counts_regionEnd]
  · rw [if_neg (mt hmem.mp hstart), if_neg hstart, List.takeWhile_filter,
      not_counts_or_ne counts_regionEnd]

/-- A kernel header declares what its counted lines declare. -/
theorem declared_countedLines (t : Text) :
    declared .blas (declarationLines .blas t) =
      declared .blas ((region (countedLines t)).filter (!Text.startsWith · banner)) := by
  rw [countedLines, region_filter_counts, filter_counts_banner, ← declarationLines_eq_region,
    declared_filter]

/-- Kernel headers whose counted lines are the same declare the same. -/
theorem prototypes_congr_countedLines {t u : Text} (h : countedLines t = countedLines u) :
    prototypes .blas t = prototypes .blas u := by
  rw [prototypes, prototypes, declared_countedLines, declared_countedLines, h]

/-- Behind whole lines the counted lines of a text are what they are on its own. -/
theorem countedLines_append {a : Text} (ha : Text.WholeLines a) (b : Text) :
    countedLines (a ++ b) = countedLines a ++ countedLines b := by
  rw [countedLines, Text.lines_append ha, List.map_append, List.filter_append]
  rfl

/-- A text of noise has no counted lines. -/
theorem countedLines_eq_nil_iff {t : Text} :
    countedLines t = [] ↔ ∀ l ∈ Text.lines t, ¬ Counts (Text.trim l) := by
  simp [countedLines, List.filter_eq_nil_iff]

/-- Where lines are written, only what is left of them by trimming counts. -/
theorem countedLines_unlines {ls : List Text} (h : ∀ l ∈ ls, Text.OneLine l) :
    countedLines (Text.unlines ls) = (ls.map Text.trim).filter (Counts ·) := by
  rw [countedLines, Text.map_trim_lines_unlines h]

/-- Of a kernel header nothing matters but the lines that count: two headers with the same
counted lines declare the same, with the same errors. So blank lines and banners can be inserted
behind any line, inside a wrapped declaration too, and the white space around the lines, a
carriage return at their ends included, can be chosen freely. -/
theorem prototypes_of_countedLines :
    (∀ t u : Text, countedLines t = countedLines u → prototypes .blas t = prototypes .blas u) ∧
    (∀ a noise b : Text, Text.WholeLines a → Text.WholeLines noise →
      (∀ l ∈ Text.lines noise, ¬ Counts (Text.trim l)) →
      prototypes .blas (a ++ noise ++ b) = prototypes .blas (a ++ b)) ∧
    ∀ ls ks : List Text, (∀ l ∈ ls ++ ks, Text.OneLine l) → ls.map Text.trim = ks.map Text.trim →
      prototypes .blas (Text.unlines ls) = prototypes .blas (Text.unlines ks) := by
  refine ⟨fun t u => prototypes_congr_countedLines, ?_, ?_⟩
  · intro a noise b ha hnoise hidle
    apply prototypes_congr_countedLines
    rw [List.append_assoc, countedLines_append ha, countedLines_append ha,
      countedLines_append hnoise, countedLines_eq_nil_iff.mpr hidle, List.nil_append]
  · intro ls ks hlines htrim
    obtain ⟨hls, hks⟩ := List.forall_mem_append.mp hlines
    apply prototypes_congr_countedLines
    rw [countedLines_unlines hls, countedLines_unlines hks, htrim]

/-- The lines of a header with a wrapped declaration between the markers. -/
def tidyLines : List Text :=
  ["typedef CBLAS_ORDER CBLAS_LAYOUT;".toList, "void cblas_a(int n,".toList, "float".toList,
    "*b);".toList, regionEnd, "void cblas_a(, );".toList]

/-- The same lines between noise, which stands inside the wrapped declaration too. -/
def noisyHeader : Text :=
  "/*** Kernels ***/\n typedef CBLAS_ORDER CBLAS_LAYOUT;\r\n\r\n\tvoid cblas_a(int n,\n\n" ++
    "  /*** wrapped */\n  float \r\n *b);  \n/*** BFLOAT16 and INT8 extensions ***/\r\n" ++
      "void cblas_a(, );"

/-- The declaration is read from between the noise as it is without it. -/
theorem prototypes_of_noisyHeader :
    countedLines noisyHeader = countedLines (Text.unlines tidyLines) ∧
    prototypes .blas noisyHeader =
      .ok [⟨"cblas_a", "void", [⟨"int", "n"⟩, ⟨"float*", "b"⟩]⟩] ∧
    prototypes .blas (Text.unlines (tidyLines.take 2) ++ " \r\n/***\n" ++
      Text.unlines (tidyLines.drop 2)) = prototypes .blas noisyHeader ∧
    prototypes .blas (Text.unlines (tidyLines.map (· ++ "\r"))) = prototypes .blas noisyHeader := by
  obtain ⟨hcounted, hinsert, hlayout⟩ := prototypes_of_countedLines
  have hlines : countedLines noisyHeader = countedLines (Text.unlines tidyLines) := by
    decide +kernel
  have htidy : prototypes .blas (Text.unlines tidyLines) =
      .ok [⟨"cblas_a", "void", [⟨"int", "n"⟩, ⟨"float*", "b"⟩]⟩] := by
    decide +kernel
  have hsame := hcounted _ _ hlines
  refine ⟨hlines, hsame.trans htidy, ?_, ?_⟩
  · rw [hinsert _ " \r\n/***\n" _ (by decide +kernel) (by decide +kernel) (by decide +kernel),
      ← Text.unlines_append, List.take_append_drop, hsame]
  · rw [hlayout _ tidyLines (by decide +kernel) (by decide +kernel), hsame]

end HeaderCards.Header
