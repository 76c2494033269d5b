import HeaderCards.Proofs.Card.Attribution

/-!
# Unfinished notes

A reader of cards has to know three things: the part of the card it stands in, how far it has
come there, and the note it has begun. The loose reader keeps them apart, so that it can be told
to go on with a note where none has been begun; what it reads there is lost. It never comes to
that: a note is pending exactly behind the tag of a parameter and up to the end of its block, and
it has been begun in the part in which it is pending. Therefore the reader that holds the note in
its mode, where nothing can be lost, reads the same.
-/

namespace HeaderCards

variable {d : Dialect}

/-- How far a reader has come in a part. A tag is looked for, then the opening of a block, then
its end; in the parts without tags, the opening, then a blank line, then the end. -/
inductive Phase where
  | start
  | opened
  | capturing
  deriving DecidableEq, Repr

/-- A reader that keeps apart the part it stands in, the phase, and the note it has begun. What it
has collected stands in the order of the card. -/
structure LooseReader where
  part : Option Heading := none
  phase : Phase := .start
  pending : Option Note := none
  said : Description := ∅
  deriving DecidableEq, Repr

/-- The heading of the part with the text of a topic. -/
def Topic.heading : Topic → Heading
  | purpose => .purpose
  | remarks => .furtherDetails

namespace LooseReader

/-- Read one stripped line of a part with text. -/
def readText (d : Dialect) (r : LooseReader) (topic : Topic) (line : Text) : LooseReader :=
  match r.phase with
  | .start => if d.opens line then { r with phase := .opened } else r
  | .opened =>
    if Text.isBlank line then { r with phase := .capturing }
    else if d.closes line then { r with part := none }
    else r
  | .capturing =>
    if d.closes line then { r with part := none }
    else { r with said := r.said ++ topic.text [line] }

/-- Finish the note that has been begun. Without one nothing is finished. -/
def finishNote (r : LooseReader) : LooseReader :=
  match r.pending with
  | some n => { r with phase := .start, pending := none, said := r.said ++ { notes := [n] } }
  | none => { r with phase := .start }

/-- Add a line to the note that has been begun. Without one the line is lost. -/
def extendNote (r : LooseReader) (line : Text) : LooseReader :=
  match r.pending with
  | some n => { r with pending := some { n with lines := n.lines ++ [Text.trim line] } }
  | none => r

/-- Read one stripped line of the arguments. -/
def readNote (d : Dialect) (r : LooseReader) (line : Text) : Except CardError LooseReader :=
  match r.phase with
  | .start =>
    if d.isTag line then
      (Tag.read line).map fun tag => { r with phase := .opened, pending := some (tag.note []) }
    else .ok r
  | .opened => .ok (if d.opens line then { r with phase := .capturing } else r)
  | .capturing => .ok (if d.closes line then r.finishNote else r.extendNote line)

/-- Read one stripped line. -/
def step (d : Dialect) (r : LooseReader) (line : Text) : Except CardError LooseReader :=
  match d.heading? line with
  | some h => .ok { r with part := some h, phase := .start, pending := none }
  | none =>
    match r.part with
    | none => .ok r
    | some .purpose => .ok (r.readText d .purpose line)
    | some .arguments => r.readNote d line
    | some .furtherDetails => .ok (r.readText d .remarks line)

/-- Read a card in a given dialect. -/
def readAs (d : Dialect) (t : Text) : Except CardError Description :=
  (d.cardLines (Text.lines t)).foldlM (fun r line => d.strip line.2 line.1 >>= step d r) {} >>=
    fun r => d.conclude r.said

end LooseReader

/-- Part, phase and pending note of a reader that is in the mode. Outside of the parts any phase
may have been left over. -/
inductive Mode.Held : Mode → Option Heading → Phase → Option Note → Prop
  | outside (phase : Phase) : Held .outside none phase none
  | seekingBlock (topic : Topic) : Held (.seekingBlock topic) (some topic.heading) .start none
  | seekingText (topic : Topic) : Held (.seekingText topic) (some topic.heading) .opened none
  | inText (topic : Topic) : Held (.inText topic) (some topic.heading) .capturing none
  | seekingTag : Held .seekingTag (some .arguments) .start none
  | seekingNote (tag : Tag) :
      Held (.seekingNote tag) (some .arguments) .opened (some (tag.note []))
  | inNote (tag : Tag) (lines : List Text) :
      Held (.inNote tag lines) (some .arguments) .capturing (some (tag.note lines.reverse))

/-- A heading leaves both readers at the same place. -/
theorem Heading.held_mode (h : Heading) : h.mode.Held (some h) .start none := by
  cases h with
  | purpose => exact .seekingBlock .purpose
  | arguments => exact .seekingTag
  | furtherDetails => exact .seekingBlock .remarks

namespace LooseReader

/-- The readers stand at the same place and have collected the same. -/
structure Matches (r : LooseReader) (s : Reader) : Prop where
  held : s.mode.Held r.part r.phase r.pending
  said : r.said = s.said

theorem Matches.empty : Matches {} {} := ⟨.outside .start, rfl⟩

/-- A line of a part with text is read by `readText`. -/
theorem step_of_topic {r : LooseReader} {topic : Topic} {l : Text} (hl : d.heading? l = none)
    (hr : r.part = some topic.heading) : step d r l = .ok (r.readText d topic l) := by
  cases topic <;> simp only [step, hl, hr, Topic.heading]

/-- Both readers take the same step. -/
theorem Matches.step {r : LooseReader} {s : Reader} (h : Matches r s) (l : Text) :
    Alike Matches (step d r l) (Reader.step d s l) := by
  cases hl : d.heading? l with
  | some heading =>
    -- A heading wins, whatever either reader was doing.
    rw [LooseReader.step, Reader.step, hl]
    exact .ok ⟨heading.held_mode, h.said⟩
  | none =>
    rw [Reader.step_of_plain (Dialect.isPlain_iff.mpr hl)]
    obtain ⟨part, phase, pending, said⟩ := r
    obtain ⟨mode, purpose, notes, remarks⟩ := s
    obtain ⟨held, hsaid⟩ := h
    -- The mode decides what the loose reader holds, so that no field of it is left open.
    cases held with
    | outside phase =>
      simp only [LooseReader.step, hl, Reader.stepInside]
      exact .ok ⟨.outside phase, hsaid⟩
    | seekingBlock topic =>
      rw [step_of_topic hl rfl]
      simp only [readText, Reader.stepInside]
      cases d.opens l with
      | true => exact .ok ⟨.seekingText topic, hsaid⟩
      | false => exact .ok ⟨.seekingBlock topic, hsaid⟩
    | seekingText topic =>
      rw [step_of_topic hl rfl]
      simp only [readText, Reader.stepInside]
      cases Text.isBlank l with
      | true => exact .ok ⟨.inText topic, hsaid⟩
      | false =>
        cases d.closes l with
        | true => exact .ok ⟨.outside .opened, hsaid⟩
        | false => exact .ok ⟨.seekingText topic, hsaid⟩
    | inText topic =>
      rw [step_of_topic hl rfl]
      simp only [readText, Reader.stepInside]
      cases d.closes l with
      | true => exact .ok ⟨.outside .capturing, hsaid⟩
      | false =>
        rw [if_neg Bool.false_ne_true, if_neg Bool.false_ne_true]
        refine .ok ⟨?_, ?_⟩
        · rw [Reader.mode_capture]
          exact .inText topic
        · rw [Reader.said_capture]
          exact congrArg (· ++ topic.text [l]) hsaid
    | seekingTag =>
      simp only [LooseReader.step, hl, readNote, Reader.stepInside]
      cases d.isTag l with
      | true =>
        cases Tag.read l with
        | error e => exact .error e
        | ok tag => exact .ok ⟨.seekingNote tag, hsaid⟩
      | false => exact .ok ⟨.seekingTag, hsaid⟩
    | seekingNote tag =>
      simp only [LooseReader.step, hl, readNote, Reader.stepInside]
      cases d.opens l with
      | true => exact .ok ⟨.inNote tag [], hsaid⟩
      | false => exact .ok ⟨.seekingNote tag, hsaid⟩
    | inNote tag lines =>
      simp only [LooseReader.step, hl, readNote, Reader.stepInside]
      cases d.closes l with
      | true =>
        refine .ok ⟨.seekingTag, ?_⟩
        have hsaid : said = Reader.said ⟨.inNote tag lines, purpose, notes, remarks⟩ := hsaid
        simp [finishNote, hsaid, Reader.said, Description.append_def]
      | false =>
        rw [if_neg Bool.false_ne_true, if_neg Bool.false_ne_true]
        have held := Mode.Held.inNote tag (Text.trim l :: lines)
        rw [List.reverse_cons] at held
        exact .ok ⟨held, hsaid⟩

/-- Whatever lines they read, the readers stay side by side. -/
theorem alike_foldlM (d : Dialect) (ls : List Text) :
    Alike Matches (ls.foldlM (step d) {}) (ls.foldlM (Reader.step d) {}) :=
  Alike.foldlM (fun _ _ l h => h.step l) Matches.empty ls

/-- Both readers read every card alike. -/
theorem readAs_eq (d : Dialect) (t : Text) : Card.readAs d t = readAs d t := by
  have hlines : Alike Matches
      ((d.cardLines (Text.lines t)).foldlM (fun r line => d.strip line.2 line.1 >>= step d r) {})
      ((d.cardLines (Text.lines t)).foldlM (Reader.stepLine d) {}) := by
    apply Alike.foldlM _ Matches.empty
    intro r s line h
    rw [Reader.stepLine]
    cases d.strip line.2 line.1 with
    | error e => exact .error e
    | ok l => exact h.step l
  have hfinish : Alike Eq (readAs d t) (Card.readAs d t) := by
    apply hlines.bind
    intro r s h
    rw [Reader.finish_eq_conclude, h.said]
    cases d.conclude s.said with
    | error e => exact .error e
    | ok D => exact .ok rfl
  exact hfinish.eq.symm

end LooseReader

/-- A note is pending in the arguments behind a tag, and nowhere else. -/
theorem Mode.Held.pending_iff {mode : Mode} {part : Option Heading} {phase : Phase}
    {pending : Option Note} (h : mode.Held part phase pending) :
    pending.isSome = true ↔
      part = some .arguments ∧ (phase = .opened ∨ phase = .capturing) := by
  cases h with
  | outside phase => simp
  | seekingBlock topic => cases topic <;> simp [Topic.heading]
  | seekingText topic => cases topic <;> simp [Topic.heading]
  | inText topic => cases topic <;> simp [Topic.heading]
  | seekingTag => simp
  | seekingNote tag => simp
  | inNote tag lines => simp

/-- The lines end inside a part with that heading, of which they hold the lines behind it. -/
def Dialect.EndsIn (d : Dialect) (h : Heading) (ls behind : List Text) : Prop :=
  ∃ before line, ls = before ++ line :: behind ∧ d.heading? line = some h ∧
    ∀ l ∈ behind, d.isPlain l = true

/-- The note is unfinished at the end of the lines of a part. Its tag has been read, and either no
block has been opened behind it, or the note has the lines of the first one, which has not been
closed. -/
inductive Dialect.Unfinished (d : Dialect) : List Text → Phase → Note → Prop
  | tagged {gap passed : List Text} {tagLine : Text} {tag : Tag} :
      d.isTag tagLine = true → Tag.read tagLine = .ok tag → (∀ l ∈ passed, d.opens l = false) →
      Unfinished d (gap ++ tagLine :: passed) .opened (tag.note [])
  | opened {gap passed body : List Text} {tagLine openLine : Text} {tag : Tag} :
      d.isTag tagLine = true → Tag.read tagLine = .ok tag → (∀ l ∈ passed, d.opens l = false) →
      d.opens openLine = true → (∀ l ∈ body, d.closes l = false) →
      Unfinished d (gap ++ tagLine :: (passed ++ openLine :: body)) .capturing
        (tag.note (body.map Text.trim))

/-- Lines without a heading stand in the same part. -/
theorem Dialect.EndsIn.append {h : Heading} {ls behind ks : List Text} (hls : d.EndsIn h ls behind)
    (hks : ∀ l ∈ ks, d.isPlain l = true) : d.EndsIn h (ls ++ ks) (behind ++ ks) := by
  obtain ⟨before, line, rfl, hline, hbehind⟩ := hls
  exact ⟨before, line, by simp, hline, List.forall_mem_append.mpr ⟨hbehind, hks⟩⟩

/-- A tag is looked for in the arguments. -/
theorem Dialect.Seeks.endsIn {behindNote : Prop} {front gap : List Text}
    (h : d.Seeks behindNote gap)
    (hfront : behindNote → ∃ behind, d.EndsIn .arguments front behind) :
    ∃ behind, d.EndsIn .arguments (front ++ gap) behind := by
  obtain ⟨start, idle, rfl, hstart, hidle⟩ := h
  have hplain : ∀ l ∈ idle, d.isPlain l = true := fun l hl => (hidle l hl).1
  rcases hstart with ⟨rfl, hnote⟩ | ⟨line, hline, hheading⟩
  · obtain ⟨behind, hbehind⟩ := hfront hnote
    exact ⟨behind ++ idle, hbehind.append hplain⟩
  · obtain ⟨start, rfl⟩ := List.getLast?_eq_some_iff.mp hline
    exact ⟨idle, front ++ start, line, by simp, hheading, hplain⟩

/-- The blocks of notes end in the arguments. -/
theorem Dialect.Sought.endsIn {bs : List NoteBlock} (h : d.Sought bs)
    (htells : ∀ b ∈ bs, ∃ n, b.Tells d n) (hne : bs ≠ []) :
    ∃ behind, d.EndsIn .arguments (bs.flatMap NoteBlock.lines) behind := by
  induction bs using List.reverseRecOn with
  | nil => contradiction
  | append_singleton bs b ih =>
    have hsought : d.Sought bs := fun before c after hbs =>
      h before c (after ++ [b]) (by rw [hbs, List.append_assoc, List.cons_append])
    have hseeks : d.Seeks (bs ≠ []) b.gap := h bs b [] rfl
    have hgap := hseeks.endsIn fun hbs =>
      ih hsought (fun c hc => htells c (List.mem_append_left _ hc)) hbs
    obtain ⟨behind, hbehind⟩ := hgap
    obtain ⟨n, hb⟩ := htells b (List.mem_append_right _ (List.mem_singleton_self b))
    rw [List.flatMap_append, List.flatMap_singleton, NoteBlock.lines, ← List.append_assoc]
    exact ⟨_, hbehind.append hb.plain⟩

namespace LooseReader

variable {r : LooseReader} {ls : List Text}

/-- A pending note has been begun in the part in which the lines end. -/
theorem Matches.unfinished {s : Reader} {bs : List NoteBlock} {rest : List Text} {n : Note}
    (h : Matches r s) (hs : s.Attributed d ls bs rest) (hn : r.pending = some n) :
    ∃ behind, d.EndsIn .arguments ls behind ∧ d.Unfinished behind r.phase n := by
  have hfront : bs ≠ [] → ∃ behind, d.EndsIn .arguments (bs.flatMap NoteBlock.lines) behind :=
    hs.sought.endsIn fun b hb => NoteBlock.exists_tells hs.notes hb
  obtain ⟨part, phase, pending, said⟩ := r
  have held := h.held
  have hfits := hs.fits
  generalize s.mode = mode at held hfits
  subst hn
  rw [hs.lines]
  -- A note is pending in two modes only.
  cases held with
  | seekingNote tag =>
    obtain ⟨gap, tagLine, passed, rfl, hseeks, htag, hread, hpassed, hplain⟩ := hfits
    obtain ⟨behind, hbehind⟩ := hseeks.endsIn hfront
    rw [← List.append_assoc]
    exact ⟨_, hbehind.append hplain, .tagged htag hread hpassed⟩
  | inNote tag lines =>
    obtain ⟨gap, tagLine, passed, openLine, body, rfl, hseeks, htag, hread, hpassed, hopen, hbody,
      hlines, hplain⟩ := hfits
    obtain ⟨behind, hbehind⟩ := hseeks.endsIn hfront
    rw [← List.append_assoc, hlines]
    exact ⟨_, hbehind.append hplain, .opened htag hread hpassed hopen hbody⟩

/-- While a block of the arguments is read, a note is pending. Its closing line finishes the note,
and every other line is added to it. -/
theorem step_of_pending {n : Note} (hpart : r.part = some .arguments)
    (hphase : r.phase = .capturing) (hn : r.pending = some n) {l : Text}
    (hl : d.heading? l = none) :
    step d r l = .ok (if d.closes l then
        { r with phase := .start, pending := none, said := r.said ++ { notes := [n] } }
      else { r with pending := some { n with lines := n.lines ++ [Text.trim l] } }) := by
  simp only [LooseReader.step, hl, hpart, readNote, hphase, finishNote, extendNote, hn]

/-- A note is pending exactly where one is needed. The loose reader reads every card as the reader
does, and along any lines it takes the same steps. Where it comes to, a note is pending exactly
while the reader is behind a tag in the arguments. So in a block of the arguments the closing line
finishes one note, and every other line that is no heading is added to it. A pending note has been
begun in the arguments in which the lines end, behind their heading. -/
theorem pending_by_part (d : Dialect) :
    (∀ t, Card.readAs d t = readAs d t) ∧
    ∀ ls, Alike Matches (ls.foldlM (step d) {}) (ls.foldlM (Reader.step d) {}) ∧
      ∀ r, ls.foldlM (step d) {} = .ok r →
        (r.pending.isSome = true ↔
          r.part = some .arguments ∧ (r.phase = .opened ∨ r.phase = .capturing)) ∧
        (r.part = some .arguments → r.phase = .capturing → ∃ n, r.pending = some n ∧
          ∀ l, d.heading? l = none → step d r l = .ok (if d.closes l then
              { r with phase := .start, pending := none, said := r.said ++ { notes := [n] } }
            else { r with pending := some { n with lines := n.lines ++ [Text.trim l] } })) ∧
        ∀ n, r.pending = some n →
          ∃ behind, d.EndsIn .arguments ls behind ∧ d.Unfinished behind r.phase n := by
  refine ⟨readAs_eq d, fun ls => ⟨alike_foldlM d ls, fun r hr => ?_⟩⟩
  have halike := alike_foldlM d ls
  rw [hr] at halike
  obtain ⟨s, hs, hmatches⟩ := halike.exists_of_ok
  have hpending := hmatches.held.pending_iff
  refine ⟨hpending, fun hpart hphase => ?_, fun n hn => ?_⟩
  · obtain ⟨n, hn⟩ := Option.isSome_iff_exists.mp (hpending.mpr ⟨hpart, .inr hphase⟩)
    exact ⟨n, hn, fun l hl => step_of_pending hpart hphase hn hl⟩
  · obtain ⟨bs, rest, hattributed⟩ := Reader.exists_attributed hs
    exact hmatches.unfinished hattributed hn

/-- Lines with a finished note, behind which another one has been begun. Its block has a line that
reads like a tag. -/
def unfinishedLines : List Text :=
  ["Arguments:".toList, "\\param[in] N".toList, "\\verbatim".toList, "  The order.".toList,
    "\\endverbatim".toList, "\\param[in,out] A".toList, "\\verbatim".toList,
    "  The matrix.".toList, "\\param[out] X".toList]

/-- The note that the lines leave unfinished. -/
def matrixNote : Note := ⟨"A", .both, ["The matrix.".toList, "\\param[out] X".toList]⟩

/-- The loose reader behind these lines. -/
def unfinishedReader : LooseReader :=
  ⟨some .arguments, .capturing, some matrixNote, { notes := [⟨"N", .input, ["The order."]⟩] }⟩

/-- The note is pending with all lines of its block, and the closing line finishes it. -/
theorem pending_of_unfinishedLines :
    unfinishedLines.foldlM (step .fortran) {} = .ok unfinishedReader ∧
    unfinishedReader.pending.isSome = true ∧
    step .fortran unfinishedReader "\\endverbatim" = .ok
      ⟨some .arguments, .start, none, { notes := [⟨"N", .input, ["The order."]⟩, matrixNote] }⟩ ∧
    ∃ behind, Dialect.fortran.EndsIn .arguments unfinishedLines behind ∧
      Dialect.fortran.Unfinished behind .capturing matrixNote := by
  have hrun : unfinishedLines.foldlM (step .fortran) {} = .ok unfinishedReader := by decide +kernel
  have hplain : Dialect.fortran.heading? "\\endverbatim" = none := by decide +kernel
  have hclose : Dialect.fortran.closes "\\endverbatim" = true := by decide +kernel
  obtain ⟨hpending, hcapturing, hbegun⟩ :=
    ((pending_by_part .fortran).2 unfinishedLines).2 unfinishedReader hrun
  obtain ⟨n, hn, hstep⟩ := hcapturing rfl rfl
  cases hn
  refine ⟨hrun, hpending.mpr ⟨rfl, .inr rfl⟩, ?_, hbegun matrixNote rfl⟩
  exact (hstep _ hplain).trans (congrArg Except.ok (if_pos hclose))

end LooseReader

end HeaderCards
