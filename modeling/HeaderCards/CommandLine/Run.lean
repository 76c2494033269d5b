import HeaderCards.Catalog.Output
import HeaderCards.Collection
import HeaderCards.CommandLine.Options

/-!
# Runs

A run collects a catalog and writes it in one format, to standard output or to a file on a disk.
Everything that can be wrong is found out before anything is written: the family, the
filters, the format, the header, and the types. A run that fails writes its reason to the
standard error output, behind the status lines if there are any yet, and nothing else.
-/

namespace HeaderCards

/-- Why a run fails. -/
inductive RunError where
  | unknownFamily (header : Text)
  | badFilter (pattern : Text) (cause : GlobError)
  | unknownFormat (name : Text)
  | badHeader (cause : HeaderProblem)
  | unmappable (cause : MappingError)
  | unwritable (path : Text) (cause : FileError)
  deriving DecidableEq, Repr

/-- What the run was about when it failed, and the cause in its own words. -/
def RunError.parts : RunError → Text × Option Text
  | unknownFamily header =>
    ("cannot infer the function family from " ++ header ++ "; pass --family", none)
  | badFilter pattern cause => ("invalid filter pattern: " ++ pattern, some cause.message)
  | unknownFormat name => (OutputFormat.unknownMessage name, none)
  | badHeader cause => (cause.context, some cause.reason)
  | unmappable cause => (cause.context, some cause.cause.message)
  | unwritable path cause => ("failed to write " ++ path, some cause.message)

/-- The text with four blanks in front of every line. -/
def indentLines (t : Text) : Text :=
  "    " ++ t.flatMap fun c => if c = '\n' then "\n    " else [c]

/-- The report of a failure. -/
def RunError.report (e : RunError) : Text :=
  "Error: " ++ e.parts.1 ++
    match e.parts.2 with
    | none => "\n"
    | some cause => "\n\nCaused by:\n" ++ indentLines cause ++ "\n"

namespace Options

/-- The family asked for, or the one the header's file name tells. -/
def family (o : Options) : Except RunError Family :=
  match o.family? with
  | some f => .ok f
  | none =>
    match Family.ofHeader? ((Path.fileName? o.header).getD []) with
    | some f => .ok f
    | none => .error (.unknownFamily o.header)

/-- One filter, read. -/
def readFilter (pattern : Text) : Except RunError Glob :=
  (Glob.read pattern).mapError (.badFilter pattern)

/-- What to collect. Dots in front of an extension are left out. -/
def request (o : Options) : Except RunError Request := do
  let family ← o.family
  let filters ← o.filters.mapM readFilter
  return {
    header := o.header, family, folder? := o.folder?
    extension? := o.extension?.map (·.dropWhile (· = '.')), filters }

/-- The format asked for. -/
def outputFormat (o : Options) : Except RunError OutputFormat :=
  match OutputFormat.ofName? o.format with
  | some f => .ok f
  | none => .error (.unknownFormat o.format)

/-- The catalog asked for, and the format in which to write it. -/
def collect (o : Options) (read : FileReader) : Except RunError (Catalog × OutputFormat) := do
  let request ← o.request
  let format ← o.outputFormat
  let catalog ← (request.collect read).mapError .badHeader
  return (catalog, format)

/-- The status lines, unless the run is quiet. -/
def statusLines (o : Options) (c : Catalog) : Text :=
  if o.quiet then [] else Text.unlines (c.entries.map Entry.statusLine)

end Options

/-- What a run leaves behind, files apart. -/
structure Outcome where
  code : Nat
  stdout : Text := []
  stderr : Text := []
  deriving DecidableEq, Repr

/-- The outcome of a run that fails after it has said `before`. -/
def Outcome.failure (before : Text) (e : RunError) : Outcome :=
  { code := 1, stderr := before ++ e.report }

/-- How a run ends: at once, or with one file to write and an outcome that depends on
whether it could be written. -/
inductive Ending where
  | done (o : Outcome)
  | write (path content : Text) (said : Text)

/-- The outcome of writing a file. -/
def Ending.afterWrite (path said : Text) : Except FileError Unit → Outcome
  | .ok () => { code := 0, stderr := said }
  | .error e => .failure said (.unwritable path e)

/-- Run with these options. The log lines that a logging library puts on the standard error output
are left out. Which of them appear is up to the environment and the verbose option; a quiet run
does not touch them. -/
def Options.run (o : Options) (read : FileReader) : Ending :=
  match o.collect read with
  | .error e => .done (.failure [] e)
  | .ok (c, format) =>
    let said := o.statusLines c
    match c.write format with
    | .error e => .done (.failure said (.unmappable e))
    | .ok content =>
      match o.output? with
      | none => .done { code := 0, stdout := content, stderr := said }
      | some path => .write path content said

/-- A disk as a run uses it: how files are read, and what writing a text to a path answers and
leaves behind. Either can be refused for any reason. -/
structure Disk (State : Type) where
  read : State → FileReader
  write : State → Text → Text → Except FileError Unit × State

/-- The disk that holds a file tree. -/
def FileTree.disk : Disk FileTree where
  read := read
  write tree path content :=
    match tree.write path content with
    | .ok written => (.ok (), written)
    | .error e => (.error e, tree)

section Disk

variable {State : Type} (d : Disk State) (s : State)

/-- End a run on a disk in that state. -/
def Ending.perform : Ending → Outcome × State
  | .done o => (o, s)
  | .write path content said =>
    let written := d.write s path content
    (afterWrite path said written.1, written.2)

/-- Run with these options on a disk in that state. -/
def Options.runIn (o : Options) : Outcome × State := (o.run (d.read s)).perform d s

end Disk

end HeaderCards
