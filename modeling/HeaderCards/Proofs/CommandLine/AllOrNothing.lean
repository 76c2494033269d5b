import HeaderCards.CommandLine.Run
import HeaderCards.Proofs.FileTree

/-!
# All or nothing

A run ends in one of three ways: it fails and leaves nothing but its report, it prints what was
asked for, or it writes that to a file and prints nothing. Whether it is quiet decides about the
status lines alone, and only about whether they are said.

Nothing is assumed of the disk but that it stores a text whole or refuses it and stays as it was.
File trees do; disks that refuse some files to the reader or to the writer do as well.
-/

namespace HeaderCards

/-- What can be told of a disk: what is found at its places, and where a path leads. -/
structure Disk.View (State Place : Type) where
  find? : State → Place → Option Node
  leadsTo : State → Text → Place → Prop

section Laws

variable {State Place : Type} (d : Disk State)

/-- A text is stored whole at the place its path leads to, every other place being left alone, or
it is refused and the disk is left alone. What can be read is left open. -/
structure Disk.StoresOrRefuses (v : Disk.View State Place) : Prop where
  refused : ∀ {s left path content e}, d.write s path content = (.error e, left) → left = s
  stored : ∀ {s left path content}, d.write s path content = (.ok (), left) →
    ∃ place, v.leadsTo s path place ∧ v.find? left place = some (.file (Utf8.encode content)) ∧
      ∀ other ≠ place, v.find? left other = v.find? s other

/-- What has been written is read back through the same path. -/
def Disk.ReadsBack : Prop := ∀ {s left path content},
  d.write s path content = (.ok (), left) → d.read left path = .ok (Utf8.encode content)

/-- The same disk, read-only. -/
def Disk.locked : Disk State :=
  { d with write := fun s _ _ => (.error (.refused "Permission denied (os error 13)"), s) }

/-- A disk that refuses every text stores none by halves. -/
theorem Disk.storesOrRefuses_locked (v : Disk.View State Place) : d.locked.StoresOrRefuses v where
  refused h := (congrArg Prod.snd h).symm
  stored h := nomatch congrArg Prod.fst h

end Laws

namespace FileTree

/-- The nodes of a tree, and the places its paths lead to. -/
def view : Disk.View FileTree (List Text) where
  find? := find?
  leadsTo tree path place := tree.follow [] (path.splitOn '/') = .ok place

variable {tree left : FileTree} {path content : Text}

theorem disk_write_eq_ok_iff :
    disk.write tree path content = (.ok (), left) ↔ tree.write path content = .ok left := by
  simp only [disk]
  cases tree.write path content <;> simp

theorem disk_write_eq_error_iff {e : FileError} :
    disk.write tree path content = (.error e, left) ↔
      tree.write path content = .error e ∧ left = tree := by
  simp only [disk]
  cases tree.write path content <;> simp [eq_comm]

theorem storesOrRefuses_disk : disk.StoresOrRefuses view where
  refused h := (disk_write_eq_error_iff.mp h).2
  stored h := (of_write (disk_write_eq_ok_iff.mp h)).2

theorem readsBack_disk : disk.ReadsBack := fun h => (of_write (disk_write_eq_ok_iff.mp h)).1

end FileTree

namespace Options

/-- What is asked for: the catalog that can be collected, in the format asked for. -/
def rendering (o : Options) (read : FileReader) : Except RunError Text :=
  o.collect read >>= fun found => (found.1.write found.2).mapError .unmappable

/-- The status lines of the catalog asked for, once it can be collected. -/
def announced (o : Options) (read : FileReader) : Text :=
  match o.collect read with
  | .error _ => []
  | .ok found => Text.unlines (found.1.entries.map Entry.statusLine)

/-- What a run says before it ends. -/
def said (o : Options) (read : FileReader) : Text := if o.quiet then [] else o.announced read

variable (o : Options)

theorem rendering_eq_ok_iff {read : FileReader} {content : Text} :
    o.rendering read = .ok content ↔
      ∃ c format, o.collect read = .ok (c, format) ∧ c.write format = .ok content := by
  rw [rendering, bind_eq_ok_iff, Prod.exists]
  refine exists_congr fun c => exists_congr fun format => and_congr_right fun _ => ?_
  cases c.write format <;> simp [Except.mapError]

/-- A run says its status lines, and then fails or delivers what is asked for. -/
theorem run_eq (read : FileReader) :
    o.run read = match o.rendering read with
      | .error e => .done (.failure (o.said read) e)
      | .ok content =>
        match o.output? with
        | none => .done { code := 0, stdout := content, stderr := o.said read }
        | some path => .write path content (o.said read) := by
  cases hcollect : o.collect read with
  | error e =>
    have hsaid : o.said read = [] := by simp [said, announced, hcollect]
    rw [run, hcollect, rendering, hcollect, error_bind, hsaid]
  | ok found =>
    obtain ⟨c, format⟩ := found
    have hsaid : o.said read = o.statusLines c := by
      simp [said, announced, hcollect, statusLines]
    simp only [run, rendering, hcollect, ok_bind, hsaid]
    cases c.write format <;> rfl

variable {State Place : Type} (d : Disk State) (s : State)

/-- A run that fails before it writes leaves the disk alone. One that does not has printed what is
asked for, or leaves the disk as writing that to a file leaves it. -/
theorem runIn_eq :
    o.runIn d s = match o.rendering (d.read s) with
      | .error e => (.failure (o.said (d.read s)) e, s)
      | .ok content =>
        match o.output? with
        | none => ({ code := 0, stdout := content, stderr := o.said (d.read s) }, s)
        | some path =>
          match d.write s path content with
          | (.error e, left) => (.failure (o.said (d.read s)) (.unwritable path e), left)
          | (.ok (), left) => ({ code := 0, stderr := o.said (d.read s) }, left) := by
  rw [runIn, run_eq]
  cases o.rendering (d.read s) with
  | error e => rfl
  | ok content =>
    cases o.output? with
    | none => rfl
    | some path =>
      simp only [Ending.perform]
      rcases d.write s path content with ⟨e | ⟨⟩, left⟩ <;> rfl

/-- The three ways in which a run ends. -/
theorem runIn_cases {d : Disk State} {v : Disk.View State Place} (h : d.StoresOrRefuses v) :
    (∃ e, o.runIn d s = (.failure (o.said (d.read s)) e, s) ∧
      ∀ content, o.rendering (d.read s) = .ok content →
        ∃ path, o.output? = some path ∧ (d.write s path content).1 ≠ .ok ()) ∨
    (∃ content, o.rendering (d.read s) = .ok content ∧ o.output? = none ∧
      o.runIn d s = ({ code := 0, stdout := content, stderr := o.said (d.read s) }, s)) ∨
    ∃ content path left, o.rendering (d.read s) = .ok content ∧ o.output? = some path ∧
      d.write s path content = (.ok (), left) ∧
      o.runIn d s = ({ code := 0, stderr := o.said (d.read s) }, left) := by
  rw [runIn_eq]
  cases hrendering : o.rendering (d.read s) with
  | error e => exact .inl ⟨e, rfl, by simp⟩
  | ok content =>
    cases houtput : o.output? with
    | none => exact .inr (.inl ⟨content, rfl, rfl, rfl⟩)
    | some path =>
      rcases hwrite : d.write s path content with ⟨e | ⟨⟩, left⟩
      · obtain rfl := h.refused hwrite
        exact .inl ⟨.unwritable path e, by simp only [hwrite], by simp [hwrite]⟩
      · exact .inr (.inr ⟨content, path, left, rfl, rfl, hwrite, by simp only [hwrite]⟩)

/-- Whether a run is quiet decides whether the status lines come first on the standard error
output; all else it says, prints and writes is the same. -/
theorem runIn_quiet :
    ∃ rest, ∀ quiet, ({ o with quiet } : Options).runIn d s =
      ({ (o.runIn d s).1 with
          stderr := (if quiet then [] else o.announced (d.read s)) ++ rest },
        (o.runIn d s).2) := by
  have hrendering (quiet : Bool) :
      ({ o with quiet } : Options).rendering (d.read s) = o.rendering (d.read s) := rfl
  have hsaid (quiet : Bool) : ({ o with quiet } : Options).said (d.read s) =
      if quiet then [] else o.announced (d.read s) := rfl
  simp only [runIn_eq, hrendering, hsaid]
  cases o.rendering (d.read s) with
  | error e => exact ⟨e.report, fun _ => rfl⟩
  | ok content =>
    cases o.output? with
    | none => exact ⟨[], fun _ => by simp⟩
    | some path =>
      rcases hwrite : d.write s path content with ⟨e | ⟨⟩, left⟩
      · exact ⟨(RunError.unwritable path e).report, fun _ => by simp only [hwrite]; rfl⟩
      · exact ⟨[], fun _ => by simp [hwrite]⟩

/-- File trees store a text whole or refuse it, and read it back. On any disk that stores a text
whole or refuses it, a run ends with code one or zero. With code one it has printed nothing and
the disk is as it was. With code zero all that was asked for is delivered: it is printed and the
disk is as it was, or nothing is printed and it is what the file holds to which the output path
leads, no other place having changed; and whenever it can be rendered and written, the code is
zero. Being quiet takes the status lines from the standard error output and changes nothing
else. -/
theorem runIn_all_or_nothing :
    FileTree.disk.StoresOrRefuses FileTree.view ∧ FileTree.disk.ReadsBack ∧
    ∀ {State Place : Type} {d : Disk State} {v : Disk.View State Place},
      d.StoresOrRefuses v → ∀ s,
      ((o.runIn d s).1.code = 1 ∨ (o.runIn d s).1.code = 0) ∧
      ((o.runIn d s).1.code = 1 → (o.runIn d s).1.stdout = [] ∧ (o.runIn d s).2 = s) ∧
      ((o.runIn d s).1.code = 0 → ∃ c format content,
        o.collect (d.read s) = .ok (c, format) ∧ c.write format = .ok content ∧
          (o.output? = none → (o.runIn d s).1.stdout = content ∧ (o.runIn d s).2 = s) ∧
          ∀ path, o.output? = some path →
            (o.runIn d s).1.stdout = [] ∧
            (d.ReadsBack → d.read (o.runIn d s).2 path = .ok (Utf8.encode content)) ∧
            ∃ place, v.leadsTo s path place ∧
              v.find? (o.runIn d s).2 place = some (.file (Utf8.encode content)) ∧
              ∀ other ≠ place, v.find? (o.runIn d s).2 other = v.find? s other) ∧
      (∀ c format content, o.collect (d.read s) = .ok (c, format) → c.write format = .ok content →
        (∀ path, o.output? = some path → (d.write s path content).1 = .ok ()) →
          (o.runIn d s).1.code = 0) ∧
      ∃ rest, ∀ quiet, ({ o with quiet } : Options).runIn d s =
        ({ (o.runIn d s).1 with
            stderr := (if quiet then [] else o.announced (d.read s)) ++ rest },
          (o.runIn d s).2) := by
  refine ⟨FileTree.storesOrRefuses_disk, FileTree.readsBack_disk, fun {_ _} d v h s => ?_⟩
  have hquiet := o.runIn_quiet d s
  rcases o.runIn_cases s h with ⟨e, hrun, hfailed⟩ | ⟨content, hcontent, houtput, hrun⟩ |
    ⟨content, path, left, hcontent, houtput, hwrite, hrun⟩
  · rw [hrun] at hquiet ⊢
    refine ⟨.inl rfl, fun _ => ⟨rfl, rfl⟩, fun hzero => by contradiction, ?_, hquiet⟩
    intro c format content hcollect hcontent hwritten
    obtain ⟨path, houtput, hfailed⟩ :=
      hfailed content (o.rendering_eq_ok_iff.mpr ⟨c, format, hcollect, hcontent⟩)
    exact absurd (hwritten path houtput) hfailed
  · obtain ⟨c, format, hcollect, hrendered⟩ := o.rendering_eq_ok_iff.mp hcontent
    rw [hrun] at hquiet ⊢
    refine ⟨.inr rfl, fun hone => by contradiction, fun _ => ?_, fun _ _ _ _ _ _ => rfl, hquiet⟩
    exact ⟨c, format, content, hcollect, hrendered, fun _ => ⟨rfl, rfl⟩, by simp [houtput]⟩
  · obtain ⟨c, format, hcollect, hrendered⟩ := o.rendering_eq_ok_iff.mp hcontent
    rw [hrun] at hquiet ⊢
    refine ⟨.inr rfl, fun hone => by contradiction, fun _ => ?_, fun _ _ _ _ _ _ => rfl, hquiet⟩
    refine ⟨c, format, content, hcollect, hrendered, by simp [houtput], fun path' hpath => ?_⟩
    obtain rfl : path = path' := Option.some.inj (houtput.symm.trans hpath)
    exact ⟨rfl, fun hback => hback hwrite, h.stored hwrite⟩

/-- A header whose only type has a binding. -/
def boundHeader : Text := "lapack_int LAPACKE_a(int x);\n"

/-- A header with a type that has none. -/
def unboundHeader : Text := "lapack_int LAPACKE_a(bf16 x);\n"

/-- A tree with a header and a file that has been written before. -/
def treeOf (header : Text) : FileTree :=
  ⟨[(["lapacke.h".toList], .file (Utf8.encode header)), (["old.txt".toList], .file [0x41])]⟩

/-- Write a listing of the header over the old file. -/
def overwrite : Options := { header := "lapacke.h", output? := some "./old.txt" }

/-- Write a record with binding types over the old file. -/
def overwriteRecord : Options := { overwrite with format := "json" }

/-- The listing is written over the old file and no other place changes, unless the disk is locked:
then nothing changes. The record of the type without a binding leaves the old file as it was,
although the status line has been said by then; a quiet run keeps that back. -/
theorem runIn_of_bound_and_unbound :
    (overwrite.runIn FileTree.disk (treeOf boundHeader)).1.stdout = [] ∧
    (overwrite.runIn FileTree.disk (treeOf boundHeader)).2.read "./old.txt" =
      .ok (Utf8.encode boundHeader) ∧
    (overwrite.runIn FileTree.disk (treeOf boundHeader)).2.find? ["lapacke.h".toList] =
      some (.file (Utf8.encode boundHeader)) ∧
    (overwrite.runIn FileTree.disk.locked (treeOf boundHeader)).1.stdout = [] ∧
    (overwrite.runIn FileTree.disk.locked (treeOf boundHeader)).2 = treeOf boundHeader ∧
    (overwriteRecord.runIn FileTree.disk (treeOf unboundHeader)).1.stdout = [] ∧
    (overwriteRecord.runIn FileTree.disk (treeOf unboundHeader)).2 = treeOf unboundHeader ∧
    ∃ rest, (overwriteRecord.runIn FileTree.disk (treeOf unboundHeader)).1.stderr =
        "LAPACKE_a ... no documentation directory\n" ++ rest ∧
      (({ overwriteRecord with quiet := true } : Options).runIn FileTree.disk
        (treeOf unboundHeader)).1.stderr = rest := by
  obtain ⟨hstores, hback, hdisk⟩ := overwrite.runIn_all_or_nothing
  obtain ⟨-, -, hzero, -, -⟩ := hdisk hstores (treeOf boundHeader)
  obtain ⟨-, hlocked, -, -, -⟩ :=
    hdisk (FileTree.disk.storesOrRefuses_locked FileTree.view) (treeOf boundHeader)
  obtain ⟨-, -, hrecord⟩ := overwriteRecord.runIn_all_or_nothing
  obtain ⟨-, hone, -, -, rest, hquiet⟩ := hrecord hstores (treeOf unboundHeader)
  obtain ⟨c, format, content, hcollect, hcontent, -, hfile⟩ := hzero (by decide +kernel)
  obtain ⟨hstdout, hread, place, hplace, -, hother⟩ := hfile "./old.txt" rfl
  obtain ⟨hrefused, hkept⟩ := hlocked (by decide +kernel)
  obtain ⟨hempty, hsame⟩ := hone (by decide +kernel)
  have hrendering : overwrite.rendering (treeOf boundHeader).read = .ok boundHeader := by
    decide +kernel
  have hrendered := overwrite.rendering_eq_ok_iff.mpr ⟨c, format, hcollect, hcontent⟩
  obtain rfl : content = boundHeader := Except.ok.inj (hrendered.symm.trans hrendering)
  have hne : ["lapacke.h".toList] ≠ place := by
    rintro rfl
    have hplace : (treeOf boundHeader).follow [] ("./old.txt".toList.splitOn '/') =
        .ok ["lapacke.h".toList] := hplace
    exact absurd hplace (by decide +kernel)
  have hannounced : overwriteRecord.announced (FileTree.disk.read (treeOf unboundHeader)) =
      "LAPACKE_a ... no documentation directory\n" := by
    decide +kernel
  refine ⟨hstdout, hread hback, (hother _ hne).trans (by decide +kernel), hrefused, hkept,
    hempty, hsame, rest, ?_, ?_⟩
  · have hloud := congrArg (·.1.stderr) (hquiet false)
    rwa [if_neg Bool.false_ne_true, hannounced] at hloud
  · exact congrArg (·.1.stderr) (hquiet true)

end Options

end HeaderCards
