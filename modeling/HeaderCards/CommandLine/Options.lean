import HeaderCards.Family

/-!
# Command line options

The arguments of a run are one header and any number of options, in any order. An option
with a value takes it from behind an equals sign, from the rest of its own argument when
written short, or from the next argument, which must not look like an option. Short
switches can share an argument. After two dashes every argument is a header. Only filters
can be given more than once.
-/

namespace HeaderCards

/-- What a run is asked to do. -/
structure Options where
  header : Text
  folder? : Option Text := none
  family? : Option Family := none
  extension? : Option Text := none
  format : Text := "report"
  output? : Option Text := none
  filters : List Text := []
  quiet : Bool := false
  verbose : Bool := false
  deriving DecidableEq, Repr

/-- Why there is nothing to run. -/
inductive Stop where
  /-- A short or a long help text is asked for. -/
  | help (long : Bool)
  | version
  /-- The arguments make no sense. -/
  | misuse
  deriving DecidableEq, Repr

namespace Options

/-- Options without a value. -/
inductive Switch where
  | quiet
  | verbose
  | help (long : Bool)
  | version
  deriving DecidableEq, Repr

/-- Options with a value. -/
inductive Setting where
  | folder
  | family
  | extension
  | format
  | output
  | filter
  deriving DecidableEq, Repr

/-- The names that stand behind one dash. -/
def shortNames : List (Char × (Switch ⊕ Setting)) :=
  [('d', .inr .folder), ('f', .inr .format), ('o', .inr .output), ('q', .inl .quiet),
   ('v', .inl .verbose), ('h', .inl (.help false)), ('V', .inl .version)]

/-- The names that stand behind two dashes. -/
def longNames : List (Text × (Switch ⊕ Setting)) :=
  [("doc-dir", .inr .folder), ("family", .inr .family), ("doc-ext", .inr .extension),
   ("format", .inr .format), ("output", .inr .output), ("filter", .inr .filter),
   ("quiet", .inl .quiet), ("verbose", .inl .verbose), ("help", .inl (.help true)),
   ("version", .inl .version)]

/-- What has been given so far. -/
structure Draft where
  header? : Option Text := none
  folder? : Option Text := none
  family? : Option Family := none
  extension? : Option Text := none
  format? : Option Text := none
  output? : Option Text := none
  filters : List Text := []
  quiet : Bool := false
  verbose : Bool := false
  deriving DecidableEq, Repr

namespace Draft

/-- Turn on a switch. A switch cannot be turned on twice, and asking for help or for the
version ends the reading. -/
def turnOn (d : Draft) : Switch → Except Stop Draft
  | .quiet => if d.quiet then .error .misuse else .ok { d with quiet := true }
  | .verbose => if d.verbose then .error .misuse else .ok { d with verbose := true }
  | .help long => .error (.help long)
  | .version => .error .version

/-- A path that has not been given before. A path is never empty. -/
def givePath (old? : Option Text) (path : Text) : Except Stop (Option Text) :=
  if old?.isSome ∨ path = [] then .error .misuse else .ok (some path)

/-- A value that has not been given before. -/
def giveOnce (old? : Option α) (value? : Option α) : Except Stop (Option α) :=
  match old?, value? with
  | none, some v => .ok (some v)
  | _, _ => .error .misuse

/-- Give a setting its value. -/
def give (d : Draft) (s : Setting) (value : Text) : Except Stop Draft :=
  match s with
  | .folder => (givePath d.folder? value).map ({ d with folder? := · })
  | .family => (giveOnce d.family? (Family.ofName? value)).map ({ d with family? := · })
  | .extension => (giveOnce d.extension? (some value)).map ({ d with extension? := · })
  | .format => (giveOnce d.format? (some value)).map ({ d with format? := · })
  | .output => (givePath d.output? value).map ({ d with output? := · })
  | .filter => .ok { d with filters := d.filters ++ [value] }

/-- Give the header. -/
def giveHeader (d : Draft) (path : Text) : Except Stop Draft :=
  (givePath d.header? path).map ({ d with header? := · })

/-- The options, once all arguments have been read. A header has to be given. -/
def finish (d : Draft) : Except Stop Options :=
  match d.header? with
  | none => .error .misuse
  | some header =>
    .ok
      { header, folder? := d.folder?, family? := d.family?, extension? := d.extension?
        format := d.format?.getD "report", output? := d.output?, filters := d.filters
        quiet := d.quiet, verbose := d.verbose }

end Draft

/-- The argument is written like an option. A single dash is not. -/
def isOption (argument : Text) : Bool :=
  match argument with
  | '-' :: _ :: _ => true
  | _ => false

/-- The name in a long option, and the value behind an equals sign. -/
def cutValue (body : Text) : Text × Option Text :=
  (body.takeWhile (· ≠ '='),
    match body.dropWhile (· ≠ '=') with
    | [] => none
    | _ :: value => some value)

/-- Read the short options in one argument; a setting whose value is not in the argument is
left over. -/
def readShort (d : Draft) : Text → Except Stop (Draft × Option Setting)
  | [] => .ok (d, none)
  | c :: cs =>
    match shortNames.lookup c with
    | none => .error .misuse
    | some (.inl s) => d.turnOn s >>= fun d => readShort d cs
    | some (.inr s) =>
      match cs with
      | [] => .ok (d, some s)
      | '=' :: value => (d.give s value).map (·, none)
      | value => (d.give s value).map (·, none)

/-- Read one long option; a setting without a value of its own is left over. -/
def readLong (d : Draft) (body : Text) : Except Stop (Draft × Option Setting) :=
  let (name, value?) := cutValue body
  match longNames.lookup name, value? with
  | some (.inl s), none => (d.turnOn s).map (·, none)
  | some (.inr s), none => .ok (d, some s)
  | some (.inr s), some value => (d.give s value).map (·, none)
  | _, _ => .error .misuse

/-- Read one argument that is written like an option. -/
def readOption (d : Draft) : Text → Except Stop (Draft × Option Setting)
  | '-' :: '-' :: body => readLong d body
  | '-' :: cluster => readShort d cluster
  | _ => .error .misuse

/-- Read arguments, given the setting that waits for its value. -/
def readArguments (d : Draft) (waiting? : Option Setting) : List Text → Except Stop Draft
  | [] => if waiting?.isSome then .error .misuse else .ok d
  | argument :: rest =>
    match waiting? with
    | some s =>
      if isOption argument then .error .misuse
      else d.give s argument >>= fun d => readArguments d none rest
    | none =>
      if argument = ['-', '-'] then rest.foldlM Draft.giveHeader d
      else if isOption argument then
        readOption d argument >>= fun r => readArguments r.1 r.2 rest
      else d.giveHeader argument >>= fun d => readArguments d none rest

/-- Read the arguments of a run. -/
def read (arguments : List Text) : Except Stop Options :=
  readArguments {} none arguments >>= Draft.finish

end Options

end HeaderCards
