import HeaderCards.CommandLine.Help

/-!
# The program

The program reads the files that a run can ask for, lets the run decide, and does what it
says. Nothing is decided here.
-/

namespace HeaderCards

/-- A refusal in the words of the operating system, with its number. -/
def FileError.numbered (words : String) (number : UInt32) : FileError :=
  refused (words.toList ++ " (os error " ++ Nat.toDigits 10 number.toNat ++ ")")

/-- The error that the operating system means. -/
def FileError.ofSystem : IO.Error → FileError
  | .noFileOrDirectory .. => notFound
  | .inappropriateType _ 21 _ => isFolder
  | .inappropriateType .. => notFolder
  | .alreadyExists _ number words | .invalidArgument _ number words
  | .noSuchThing _ number words | .permissionDenied _ number words
  | .resourceExhausted _ number words | .otherError number words => numbered words number
  | e => refused e.toString.toList

/-- Try to use a file. -/
def tryFile (act : IO α) : IO (Except FileError α) := do
  try return .ok (← act)
  catch e => return .error (.ofSystem e)

/-- Read a file. -/
def readFile (path : Text) : IO (Except FileError (List UInt8)) :=
  tryFile do return (← IO.FS.readBinFile (String.ofList path)).toList

/-- Write a file. -/
def writeFile (path content : Text) : IO (Except FileError Unit) :=
  tryFile (IO.FS.writeFile (String.ofList path) (String.ofList content))

/-- Files that have been read. -/
abbrev ReadFiles := List (Text × Except FileError (List UInt8))

/-- The reader that knows these files and no others. -/
def ReadFiles.reader (files : ReadFiles) : FileReader := fun path =>
  (files.lookup path).getD (.error .notFound)

/-- Read the header, and then the cards it asks for. -/
def readFiles (o : Options) : IO ReadFiles := do
  match o.request with
  | .error _ => return []
  | .ok q =>
    let header : ReadFiles := [(q.header, ← readFile q.header)]
    let cards ← (q.cardPaths header.reader).mapM fun path => return (path, ← readFile path)
    return header ++ cards

/-- Run with these options. -/
def Options.execute (o : Options) : IO Outcome := do
  match o.run (← readFiles o).reader with
  | .done outcome => return outcome
  | .write path content said => return Ending.afterWrite path said (← writeFile path content)

/-- Say what a run has to say, and answer its code. -/
def Outcome.conclude (o : Outcome) : IO UInt32 := do
  IO.eprint (String.ofList o.stderr)
  IO.print (String.ofList o.stdout)
  return o.code.toUInt32

end HeaderCards

/-- Run the program. -/
def main (args : List String) : IO UInt32 := do
  match HeaderCards.Options.read (args.map (·.toList)) with
  | .error stop => stop.outcome.conclude
  | .ok o => (← o.execute).conclude
