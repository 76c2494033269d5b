import HeaderCards.Text.Utf8

/-!
# File trees

A file tree holds files and folders at places, a place being the names that lead to it from
the root. Following a path takes one component after the other: each has to be looked up in
a folder, an empty component and a single dot stay there, two dots go up, and the root is
above itself. Reading and writing fail for the reasons an operating system gives, which
also sets a limit to the bytes in a name and in a path.
-/

namespace HeaderCards

/-- Why a file cannot be read or written. -/
inductive FileError where
  | notFound
  | notFolder
  | isFolder
  | tooLong
  | nulInPath
  | notUtf8
  /-- Any other refusal of the operating system, with its message. -/
  | refused (reason : Text)
  deriving DecidableEq, Repr

/-- The message for a file that cannot be read or written. -/
def FileError.message : FileError → Text
  | notFound => "No such file or directory (os error 2)"
  | notFolder => "Not a directory (os error 20)"
  | isFolder => "Is a directory (os error 21)"
  | tooLong => "File name too long (os error 36)"
  | nulInPath => "file name contained an unexpected NUL byte"
  | notUtf8 => "stream did not contain valid UTF-8"
  | refused reason => reason

/-- What can be at a place. -/
inductive Node where
  | file (bytes : List UInt8)
  | folder
  deriving DecidableEq, Repr

/-- Files and folders at their places. Of two nodes at one place the first counts. -/
structure FileTree where
  nodes : List (List Text × Node) := []
  deriving DecidableEq, Repr

namespace FileTree

/-- What is at a place. The root is a folder. -/
def find? (t : FileTree) (place : List Text) : Option Node :=
  if place = [] then some .folder else t.nodes.lookup place

/-- Put a node at a place. -/
def put (t : FileTree) (place : List Text) (n : Node) : FileTree :=
  ⟨(place, n) :: t.nodes⟩

/-- What is put at a place is found there. -/
theorem find?_put_self (t : FileTree) {place : List Text} (h : place ≠ []) (n : Node) :
    (t.put place n).find? place = some n := by
  simp [find?, put, h]

/-- All other places are left alone. -/
theorem find?_put_of_ne (t : FileTree) {place other : List Text} (h : other ≠ place) (n : Node) :
    (t.put place n).find? other = t.find? other := by
  simp [find?, put, List.lookup_cons, beq_eq_false_iff_ne.mpr h]

/-- The most bytes a name can have. -/
def longestName : Nat := 255

/-- The most bytes a path can have. -/
def longestPath : Nat := 4095

/-- The place that the components of a path lead to from a place. -/
def follow (t : FileTree) (place : List Text) : List Text → Except FileError (List Text)
  | [] => .ok place
  | c :: cs =>
    match t.find? place with
    | none => .error .notFound
    | some (.file _) => .error .notFolder
    | some .folder =>
      if c = [] ∨ c = ['.'] then t.follow place cs
      else if c = ['.', '.'] then t.follow place.dropLast cs
      else if longestName < (Utf8.encode c).length then .error .tooLong
      else t.follow (place ++ [c]) cs

/-- Check the limits that hold for every path, whatever the tree holds. -/
def checkPath (path : Text) : Except FileError Unit :=
  if '\x00' ∈ path then .error .nulInPath
  else if path = [] then .error .notFound
  else if longestPath < (Utf8.encode path).length then .error .tooLong
  else .ok ()

/-- The bytes of the file a path leads to. -/
def read (t : FileTree) (path : Text) : Except FileError (List UInt8) := do
  checkPath path
  match t.find? (← t.follow [] (path.splitOn '/')) with
  | none => throw .notFound
  | some .folder => throw .isFolder
  | some (.file bytes) => return bytes

/-- The place at which a path would put a file. A path that ends in a slash or in dots can
only be a folder's. -/
def target (t : FileTree) (path : Text) : Except FileError (List Text) := do
  checkPath path
  let names := (path.reverse.dropWhile (· = '/')).reverse.splitOn '/'
  let folder ← t.follow [] (names.dropLast ++ [['.']])
  let name := names.getLast?.getD []
  if name = [] ∨ name = ['.'] ∨ name = ['.', '.'] ∨ path.getLast? = some '/' then
    throw .isFolder
  let place ← t.follow folder [name]
  match t.find? place with
  | some .folder => throw .isFolder
  | _ => return place

/-- The tree after a text has been written to the file a path leads to. -/
def write (t : FileTree) (path : Text) (content : Text) : Except FileError FileTree :=
  (t.target path).map fun place => t.put place (.file (Utf8.encode content))

end FileTree

end HeaderCards
