import HeaderCards.Proofs.Card.Parts
import Mathlib.Control.Monad.Basic

/-!
# The reader follows the layout

The line by line reader collects exactly what the layout of the card says. Inside one part
this is shown for every mode that the reader can be in there; a heading forgets the mode,
so the parts follow each other independently.
-/

namespace HeaderCards

variable {d : Dialect}

/-- What a reader has collected, in the order of the card. -/
def Reader.said (r : Reader) : Description :=
  ⟨r.purpose.reverse, r.notes.reverse, r.remarks.reverse⟩

namespace Reader

@[simp] theorem said_empty : Reader.said {} = ∅ := rfl

@[simp] theorem said_mode (r : Reader) (m : Mode) : ({ r with mode := m } : Reader).said = r.said :=
  rfl

/-- A captured line is said last. -/
theorem said_capture (r : Reader) (topic : Topic) (line : Text) :
    (r.capture topic line).said = r.said ++ topic.text [line] := by
  cases topic <;> simp [said, capture, Topic.text, Description.append_def]

@[simp] theorem mode_capture (r : Reader) (topic : Topic) (line : Text) :
    (r.capture topic line).mode = r.mode := by cases topic <;> rfl

/-- A line that is no heading is read inside the part. -/
theorem step_of_plain {r : Reader} {line : Text} (h : d.isPlain line = true) :
    step d r line = stepInside d r line := by
  rw [step, Dialect.isPlain_iff.mp h]

section Part

variable {ls : List Text} (hplain : ∀ l ∈ ls, d.isPlain l = true)

include hplain

/-- Outside of every part nothing is read. -/
theorem foldlM_step_of_outside {r : Reader} (hr : r.mode = .outside) :
    ls.foldlM (step d) r = .ok r := by
  apply foldlM_of_fixed
  intro l hl
  rw [step_of_plain (hplain l hl), stepInside, hr]

/-- The text of a topic runs up to the closing line. -/
theorem said_of_inText {r : Reader} {topic : Topic} (hr : r.mode = .inText topic) :
    (ls.foldlM (step d) r).map said = .ok (r.said ++ topic.text (ls.takeWhile (!d.closes ·))) := by
  induction ls generalizing r with
  | nil => simp [pure, Except.pure]
  | cons l ls ih =>
    have hl := hplain l (List.mem_cons_self ..)
    have hls : ∀ k ∈ ls, d.isPlain k = true := fun k hk => hplain k (List.mem_cons_of_mem _ hk)
    rw [List.foldlM_cons, step_of_plain hl, stepInside, hr]
    cases hc : d.closes l with
    | true => simp [hc, foldlM_step_of_outside hls]
    | false =>
      simp only [Bool.false_eq_true, ↓reduceIte, ok_bind]
      rw [ih hls (by simpa using hr), List.takeWhile_cons_of_pos (by simp [hc]), said_capture,
        Description.append_assoc]
      cases topic <;> rfl

/-- The text of a topic begins behind the first blank line of the block, unless the block is
closed before. -/
theorem said_of_seekingText {r : Reader} {topic : Topic} (hr : r.mode = .seekingText topic) :
    (ls.foldlM (step d) r).map said =
      .ok (r.said ++ topic.text (d.textIn ls)) := by
  induction ls generalizing r with
  | nil => simp [pure, Except.pure, Dialect.textIn]
  | cons l ls ih =>
    have hl := hplain l (List.mem_cons_self ..)
    have hls : ∀ k ∈ ls, d.isPlain k = true := fun k hk => hplain k (List.mem_cons_of_mem _ hk)
    rw [List.foldlM_cons, step_of_plain hl, stepInside, hr]
    cases hb : Text.isBlank l with
    | true => simp [hb, said_of_inText hls, Dialect.textIn]
    | false =>
      cases hc : d.closes l with
      | true => simp [hb, hc, foldlM_step_of_outside hls, Dialect.textIn]
      | false =>
        rw [Dialect.textIn, List.dropWhile_cons_of_pos (by simp [hb, hc]), ← Dialect.textIn]
        simpa using ih hls hr

/-- The reader captures the text of a topic. -/
theorem said_of_seekingBlock {r : Reader} {topic : Topic} (hr : r.mode = .seekingBlock topic) :
    (ls.foldlM (step d) r).map said = .ok (r.said ++ topic.text (d.captured ls)) := by
  induction ls generalizing r with
  | nil => simp [pure, Except.pure, Dialect.captured, Dialect.block, Dialect.textIn]
  | cons l ls ih =>
    have hl := hplain l (List.mem_cons_self ..)
    have hls : ∀ k ∈ ls, d.isPlain k = true := fun k hk => hplain k (List.mem_cons_of_mem _ hk)
    rw [List.foldlM_cons, step_of_plain hl, stepInside, hr]
    cases ho : d.opens l with
    | true => simp [said_of_seekingText hls, Dialect.captured, Dialect.block, ho]
    | false =>
      have hblock : d.block (l :: ls) = d.block ls := by simp [Dialect.block, ho]
      rw [Dialect.captured, hblock, ← Dialect.captured]
      simpa using ih hls hr

/-- The lines of a note run up to the closing line, behind which the next tag is looked for. -/
theorem said_of_inNote {r : Reader} {tag : Tag} {lines : List Text}
    (hr : r.mode = .inNote tag lines) :
    (ls.foldlM (step d) r).map said =
      match ls.dropWhile (!d.closes ·) with
      | [] => .ok r.said
      | _ :: rest =>
        (rest.foldlM (step d) ⟨.seekingTag, r.purpose,
          tag.note (lines.reverse ++ (ls.takeWhile (!d.closes ·)).map Text.trim) :: r.notes,
          r.remarks⟩).map said := by
  induction ls generalizing r lines with
  | nil => rfl
  | cons l ls ih =>
    have hl := hplain l (List.mem_cons_self ..)
    have hls : ∀ k ∈ ls, d.isPlain k = true := fun k hk => hplain k (List.mem_cons_of_mem _ hk)
    rw [List.foldlM_cons, step_of_plain hl, stepInside, hr]
    cases hc : d.closes l with
    | true => simp [hc]
    | false =>
      simp only [Bool.false_eq_true, ↓reduceIte, ok_bind]
      rw [ih hls rfl, List.dropWhile_cons_of_pos (by simp [hc]),
        List.takeWhile_cons_of_pos (by simp [hc])]
      simp

/-- Behind a tag the block of its note is looked for. -/
theorem said_of_seekingNote {r : Reader} {tag : Tag} (hr : r.mode = .seekingNote tag) :
    (ls.foldlM (step d) r).map said =
      match (d.block ls).dropWhile (!d.closes ·) with
      | [] => .ok r.said
      | _ :: rest =>
        (rest.foldlM (step d) ⟨.seekingTag, r.purpose,
          tag.note (((d.block ls).takeWhile (!d.closes ·)).map Text.trim) :: r.notes,
          r.remarks⟩).map said := by
  induction ls generalizing r with
  | nil => rfl
  | cons l ls ih =>
    have hl := hplain l (List.mem_cons_self ..)
    have hls : ∀ k ∈ ls, d.isPlain k = true := fun k hk => hplain k (List.mem_cons_of_mem _ hk)
    rw [List.foldlM_cons, step_of_plain hl, stepInside, hr]
    cases ho : d.opens l with
    | true =>
      have hblock : d.block (l :: ls) = ls := by simp [Dialect.block, ho]
      simp only [↓reduceIte, ok_bind]
      rw [said_of_inNote hls rfl, hblock]
      rfl
    | false =>
      have hblock : d.block (l :: ls) = d.block ls := by simp [Dialect.block, ho]
      rw [hblock]
      simpa using ih hls hr

/-- Lines in front of the first tag are passed over. -/
theorem foldlM_step_of_seekingTag {r : Reader} (hr : r.mode = .seekingTag) :
    ls.foldlM (step d) r = (ls.dropWhile (!d.isTag ·)).foldlM (step d) r := by
  induction ls with
  | nil => rfl
  | cons l ls ih =>
    cases ht : d.isTag l with
    | true => rw [List.dropWhile_cons_of_neg (by simp [ht])]
    | false =>
      have hls : ∀ k ∈ ls, d.isPlain k = true := fun k hk => hplain k (List.mem_cons_of_mem _ hk)
      have hstep : step d r l = .ok r := by
        rw [step_of_plain (hplain l (List.mem_cons_self ..)), stepInside, hr]
        simp [ht]
      rw [List.foldlM_cons, hstep, ok_bind, ih hls, List.dropWhile_cons_of_pos (by simp [ht])]

end Part

/-- The reader collects the notes of a part. -/
theorem said_of_seekingTag {ls : List Text} (hplain : ∀ l ∈ ls, d.isPlain l = true) {r : Reader}
    (hr : r.mode = .seekingTag) :
    (ls.foldlM (step d) r).map said =
      (d.noted ls).map fun ns => r.said ++ ({ notes := ns } : Description) := by
  induction ls using Dialect.noted.induct d generalizing r with
  | case1 ls ht =>
    rw [foldlM_step_of_seekingTag hplain hr, ht, Dialect.noted_of_untagged ht]
    simp [pure, Except.pure, Description.append_def]
  | case2 ls tagLine behind ht ih =>
    have hsub : (tagLine :: behind).Sublist ls := ht ▸ List.dropWhile_sublist _
    have htag : d.isTag tagLine = true := by
      have hhead := List.head_dropWhile_not (!d.isTag ·) (l := ls) (by simp [ht])
      simpa [ht] using hhead
    have hbehind : ∀ l ∈ behind, d.isPlain l = true := fun l hl =>
      hplain l (hsub.subset (List.mem_cons_of_mem _ hl))
    rw [foldlM_step_of_seekingTag hplain hr, ht, Dialect.noted_of_tagged ht, List.foldlM_cons,
      step_of_plain (hplain tagLine (hsub.subset (List.mem_cons_self ..))), stepInside, hr]
    simp only [htag, ↓reduceIte]
    cases Tag.read tagLine with
    | error e => rfl
    | ok tag =>
      rw [map_ok, ok_bind, said_of_seekingNote hbehind rfl, ok_bind]
      cases hc : (d.block behind).dropWhile (!d.closes ·) with
      | nil => simp [Description.append_def, said]
      | cons last rest =>
        have hrest : (last :: rest).Sublist behind := hc ▸ (List.dropWhile_sublist _).trans
          ((List.tail_sublist _).trans (List.dropWhile_sublist _))
        have hplain' : ∀ l ∈ rest, d.isPlain l = true := fun l hl =>
          hbehind l (hrest.subset (List.mem_cons_of_mem _ hl))
        refine (ih last rest hc hplain' rfl).trans ?_
        cases hn : d.noted rest with
        | error e => simp [hn]
        | ok ns => simp [hn, said, Description.append_def]

/-- The mode in which a heading leaves the reader makes it collect what the part says. -/
theorem said_of_heading {ls : List Text} (hplain : ∀ l ∈ ls, d.isPlain l = true) (r : Reader)
    (h : Heading) :
    (ls.foldlM (step d) { r with mode := h.mode }).map said =
      (d.content ⟨h, ls⟩).map (r.said ++ ·) := by
  cases h with
  | purpose => exact said_of_seekingBlock hplain rfl
  | arguments =>
    rw [said_of_seekingTag hplain rfl, Dialect.content]
    cases d.noted ls <;> rfl
  | furtherDetails => exact said_of_seekingBlock hplain rfl

/-- What the reader collects from all lines: first what the part in which it stands says up
to the next heading, and then what the parts from there on say. -/
theorem said_of_parts (r : Reader) (ls : List Text) :
    (ls.foldlM (step d) r).map said =
      ((ls.takeWhile d.isPlain).foldlM (step d) r).map said >>= fun first =>
        ((d.parts ls).mapM d.content).map fun ds => first ++ Description.join ds := by
  induction ls generalizing r with
  | nil => simp [Dialect.parts, pure, Except.pure]
  | cons l ls ih =>
    cases hl : d.heading? l with
    | none =>
      have hplain : d.isPlain l = true := Dialect.isPlain_iff.mpr hl
      rw [List.takeWhile_cons_of_pos hplain, List.foldlM_cons, List.foldlM_cons,
        Dialect.parts, hl]
      cases step d r l with
      | error e => rfl
      | ok r => exact ih r
    | some h =>
      have hmarked : ¬ d.isPlain l = true := by simp [Dialect.isPlain_iff, hl]
      have hstep : step d r l = .ok { r with mode := h.mode } := by simp [step, hl]
      have hbody : ∀ k ∈ ls.takeWhile d.isPlain, d.isPlain k = true := fun k hk =>
        List.all_eq_true.mp List.all_takeWhile k hk
      rw [List.takeWhile_cons_of_neg hmarked, List.foldlM_cons, hstep, ok_bind, ih,
        said_of_heading hbody, Dialect.parts, hl, List.mapM_cons]
      cases d.content ⟨h, ls.takeWhile d.isPlain⟩ with
      | error e => rfl
      | ok first =>
        cases (d.parts ls).mapM d.content with
        | error e => rfl
        | ok ds => simp [pure, Except.pure, Description.append_assoc]

/-- Stripping and reading line by line is reading the lines that can be stripped, and then
failing if there is one that cannot. -/
theorem foldlM_stepLine (r : Reader) (ls : List (Text × Nat)) :
    ls.foldlM (stepLine d) r = (d.stripAll ls).1.foldlM (step d) r >>= fun r =>
      match (d.stripAll ls).2 with
      | none => .ok r
      | some e => .error e := by
  induction ls generalizing r with
  | nil => rfl
  | cons line ls ih =>
    obtain ⟨l, number⟩ := line
    cases hs : d.strip number l with
    | error e => simp [stepLine, Dialect.stripAll, hs, pure, Except.pure]
    | ok text =>
      simp only [List.foldlM_cons, stepLine, Dialect.stripAll, hs, ok_bind, bind_assoc]
      cases step d r text with
      | error e => rfl
      | ok r => exact ih r

/-- The reader collects what the lines say. -/
theorem said_of_gather (ls : List (Text × Nat)) :
    (ls.foldlM (stepLine d) {}).map said = d.gather ls := by
  have houtside : ((d.stripAll ls).1.takeWhile d.isPlain).foldlM (step d) {} = .ok {} :=
    foldlM_step_of_outside (List.all_eq_true.mp List.all_takeWhile) rfl
  have hparts := said_of_parts (d := d) {} (d.stripAll ls).1
  rw [houtside, map_ok, ok_bind, said_empty] at hparts
  rw [foldlM_stepLine, Dialect.gather]
  cases hr : (d.stripAll ls).1.foldlM (step d) {} with
  | error e =>
    rw [hr] at hparts
    cases hc : (d.parts (d.stripAll ls).1).mapM d.content with
    | error e' => simpa [hc] using hparts
    | ok ds => simp [hc] at hparts
  | ok r =>
    rw [hr] at hparts
    cases hc : (d.parts (d.stripAll ls).1).mapM d.content with
    | error e' => simp [hc] at hparts
    | ok ds =>
      have hsaid : r.said = Description.join ds := by simpa [hc] using hparts
      cases (d.stripAll ls).2 <;> simp [hsaid]

/-- Finishing looks at nothing but what has been collected. -/
theorem finish_eq_conclude (r : Reader) : finish d r = d.conclude r.said := by
  rw [finish, Dialect.conclude]
  exact ite_congr (by simp [said]) (fun _ => rfl) fun _ => rfl

end Reader

/-- A card says what its layout says. -/
theorem Card.readAs_eq_gather (d : Dialect) (t : Text) :
    Card.readAs d t = d.gather (d.cardLines (Text.lines t)) >>= d.conclude := by
  rw [Card.readAs, ← Reader.said_of_gather]
  cases (d.cardLines (Text.lines t)).foldlM (Reader.stepLine d) {} with
  | error e => rfl
  | ok r => exact Reader.finish_eq_conclude r

/-- Lines that fail cannot be mended by the lines behind them. -/
theorem Dialect.gather_append_of_error {before : List (Text × Nat)} {e : CardError}
    (h : d.gather before = .error e) (after : List (Text × Nat)) :
    d.gather (before ++ after) = .error e := by
  rw [← Reader.said_of_gather] at h ⊢
  rw [List.foldlM_append]
  cases hr : before.foldlM (Reader.stepLine d) {} with
  | error e' => simpa [hr] using h
  | ok r => simp [hr] at h

/-- A card is read part by part: its lines are stripped and cut at the headings, and every
part is read on its own. The first line that fails decides, whatever follows it. -/
theorem Card.readAs_by_parts (d : Dialect) (t : Text) :
    Card.readAs d t = d.gather (d.cardLines (Text.lines t)) >>= d.conclude ∧
      ∀ before after e, d.cardLines (Text.lines t) = before ++ after →
        d.gather before = .error e → Card.readAs d t = .error e := by
  refine ⟨readAs_eq_gather d t, ?_⟩
  intro before after e hlines hbefore
  rw [readAs_eq_gather, hlines, Dialect.gather_append_of_error hbefore, error_bind]

/-- A tag with words that are no direction fails its card at once, even though a tag without
brackets stands behind it. -/
theorem Card.readAs_of_unknown_direction :
    Card.readAs .fortran "*> Arguments:\n*> \\param[up] N\n*> \\param[in\n" =
      .error (.unknownDirection "up" "N") :=
  (Card.readAs_by_parts .fortran "*> Arguments:\n*> \\param[up] N\n*> \\param[in\n").2
    [("*> Arguments:".toList, 1), ("*> \\param[up] N".toList, 2)] [("*> \\param[in".toList, 3)]
    (.unknownDirection "up" "N") (by decide +kernel) (by decide +kernel)

end HeaderCards
