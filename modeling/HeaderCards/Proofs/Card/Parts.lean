import HeaderCards.Card.Reader
import HeaderCards.Proofs.Outcome

/-!
# The parts of a card

A card is read here by its layout, without a reader that goes from line to line. The
headings cut the lines into parts. A part with text says what its verbatim block captures,
and the part on the arguments says one note for every tag whose block is closed. What the
card says is what its parts say, one after the other.
-/

namespace HeaderCards

namespace Description

/-- What is said first, followed by what is said next. -/
instance : Append Description :=
  ⟨fun a b => ⟨a.purpose ++ b.purpose, a.notes ++ b.notes, a.remarks ++ b.remarks⟩⟩

theorem append_def (a b : Description) :
    a ++ b = ⟨a.purpose ++ b.purpose, a.notes ++ b.notes, a.remarks ++ b.remarks⟩ := rfl

theorem append_assoc (a b c : Description) : a ++ b ++ c = a ++ (b ++ c) := by
  simp [append_def]

@[simp] theorem empty_append (a : Description) : ∅ ++ a = a := rfl

@[simp] theorem append_empty (a : Description) : a ++ ∅ = a := by
  simp [append_def, EmptyCollection.emptyCollection]

/-- What several descriptions say together. -/
def join (ds : List Description) : Description :=
  ⟨ds.flatMap (·.purpose), ds.flatMap (·.notes), ds.flatMap (·.remarks)⟩

@[simp] theorem join_nil : join [] = ∅ := rfl

@[simp] theorem join_cons (a : Description) (ds : List Description) :
    join (a :: ds) = a ++ join ds := by simp [join, append_def]

end Description

/-- The description that consists of the text of one topic. -/
def Topic.text : Topic → List Text → Description
  | purpose, ls => { purpose := ls }
  | remarks, ls => { remarks := ls }

@[simp] theorem Topic.text_nil (topic : Topic) : topic.text [] = ∅ := by cases topic <;> rfl

/-- A heading and the lines behind it, up to the next heading. -/
structure Part where
  heading : Heading
  lines : List Text
  deriving DecidableEq, Repr

namespace Dialect

/-- The line is no heading. -/
def isPlain (d : Dialect) (line : Text) : Bool := (d.heading? line).isNone

theorem isPlain_iff {d : Dialect} {line : Text} :
    d.isPlain line = true ↔ d.heading? line = none := by simp [isPlain]

/-- The parts of a card in order. Lines in front of the first heading belong to no part. -/
def parts (d : Dialect) : List Text → List Part
  | [] => []
  | l :: ls =>
    match d.heading? l with
    | none => parts d ls
    | some h => ⟨h, ls.takeWhile d.isPlain⟩ :: parts d ls

/-- The lines behind the first one that opens a verbatim block. -/
def block (d : Dialect) (ls : List Text) : List Text := (ls.dropWhile (!d.opens ·)).tail

/-- The text of a verbatim block, given the lines behind its opening. The first line that is
blank or closes the block decides: behind a blank line stands the text, as it is and up to
the next closing line. -/
def textIn (d : Dialect) (ls : List Text) : List Text :=
  match ls.dropWhile fun l => !(Text.isBlank l || d.closes l) with
  | [] => []
  | l :: rest => if Text.isBlank l then rest.takeWhile (!d.closes ·) else []

/-- The text captured from the lines of a part: that of its first verbatim block. -/
def captured (d : Dialect) (ls : List Text) : List Text := d.textIn (d.block ls)

/-- Reading a closed note leaves fewer lines than there were. -/
theorem length_lt_of_closed {d : Dialect} {ls behind rest : List Text} {tagLine last : Text}
    (ht : ls.dropWhile (!d.isTag ·) = tagLine :: behind)
    (hc : (d.block behind).dropWhile (!d.closes ·) = last :: rest) : rest.length < ls.length := by
  have htag := (List.dropWhile_sublist (!d.isTag ·) (l := ls)).length_le
  have hclose := (List.dropWhile_sublist (!d.closes ·) (l := d.block behind)).length_le
  have hblock := ((List.tail_sublist _).trans
    (List.dropWhile_sublist (!d.opens ·) (l := behind))).length_le
  rw [ht, List.length_cons] at htag
  rw [hc, List.length_cons] at hclose
  rw [← block] at hblock
  omega

/-- The notes in the lines of a part, from tag to tag: the tag is read, the lines of the
next block are trimmed, and what follows the closing line is read in the same way. A note
whose block is not closed is dropped. -/
def noted (d : Dialect) (ls : List Text) : Except CardError (List Note) :=
  match _ht : ls.dropWhile (!d.isTag ·) with
  | [] => .ok []
  | tagLine :: behind =>
    Tag.read tagLine >>= fun tag =>
      match _hc : (d.block behind).dropWhile (!d.closes ·) with
      | [] => .ok []
      | _ :: rest =>
        (noted d rest).map
          (tag.note (((d.block behind).takeWhile (!d.closes ·)).map Text.trim) :: ·)
termination_by ls.length
decreasing_by exact length_lt_of_closed _ht _hc

/-- A part without tags has no notes. -/
theorem noted_of_untagged {d : Dialect} {ls : List Text} (h : ls.dropWhile (!d.isTag ·) = []) :
    d.noted ls = .ok [] := by
  rw [noted]
  split
  · rfl
  · next ht => simp [h] at ht

/-- The first tag is read, and with the block behind it makes the first note. -/
theorem noted_of_tagged {d : Dialect} {ls behind : List Text} {tagLine : Text}
    (h : ls.dropWhile (!d.isTag ·) = tagLine :: behind) :
    d.noted ls = Tag.read tagLine >>= fun tag =>
      match (d.block behind).dropWhile (!d.closes ·) with
      | [] => .ok []
      | _ :: rest =>
        (d.noted rest).map
          (tag.note (((d.block behind).takeWhile (!d.closes ·)).map Text.trim) :: ·) := by
  rw [noted]
  split
  · next ht => simp [h] at ht
  · next ht =>
    rw [h] at ht
    cases ht
    congr 1
    funext tag
    split
    · next hc => rw [hc]
    · next hc => rw [hc]

/-- What a part says. -/
def content (d : Dialect) (p : Part) : Except CardError Description :=
  match p.heading with
  | .purpose => .ok (Topic.purpose.text (d.captured p.lines))
  | .arguments => (d.noted p.lines).map fun ns => { notes := ns }
  | .furtherDetails => .ok (Topic.remarks.text (d.captured p.lines))

/-- The stripped texts of the lines in front of the first one that cannot be stripped, and
why that one cannot. -/
def stripAll (d : Dialect) : List (Text × Nat) → List Text × Option CardError
  | [] => ([], none)
  | (line, number) :: rest =>
    match d.strip number line with
    | .error e => ([], some e)
    | .ok l => (l :: (d.stripAll rest).1, (d.stripAll rest).2)

/-- What the numbered lines say, unless one of them fails: it cannot be stripped, or it is a
tag that cannot be read. The tags in front of a line that cannot be stripped come first. -/
def gather (d : Dialect) (ls : List (Text × Nat)) : Except CardError Description :=
  (d.parts (d.stripAll ls).1).mapM d.content >>= fun ds =>
    match (d.stripAll ls).2 with
    | none => .ok (Description.join ds)
    | some e => .error e

/-- What is made of the whole card: its texts are squeezed, and a purpose may be required. -/
def conclude (d : Dialect) (said : Description) : Except CardError Description :=
  if d.requiresPurpose ∧ Block.squeeze said.purpose = [] then .error .missingPurpose
  else .ok ⟨Block.squeeze said.purpose, said.notes, Block.squeeze said.remarks⟩

end Dialect

end HeaderCards
