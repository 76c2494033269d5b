import HeaderCards.Card.Reader
import HeaderCards.Catalog
import HeaderCards.FileTree
import HeaderCards.Glob.Selection
import HeaderCards.Header
import HeaderCards.Path

/-!
# Collecting a catalog

A catalog is collected from a header and from one card for every function that the filters
keep. A header that cannot be read fails the collection; a card that cannot be read never
does, but leaves its function without a description and with the reason as its status.

Files are reached through a reader, a function from paths to bytes, so that nothing but
what it answers can matter.
-/

namespace HeaderCards

/-- How a path is read. -/
abbrev FileReader := Text → Except FileError (List UInt8)

/-- A choice among names. -/
abbrev Selection := Text → Bool

/-- A name is kept when one of the selections chooses it. Without any, all names are. -/
def Selection.keep (selections : List Selection) (name : Text) : Bool :=
  selections.isEmpty || selections.any (· name)

/-- What a catalog is collected from. -/
structure Request where
  header : Text
  family : Family
  /-- The folder with the cards. -/
  folder? : Option Text := none
  /-- The file extension of the cards, if it is not the family's. -/
  extension? : Option Text := none
  /-- Patterns of which a function's name has to match one; without any, all are kept. -/
  filters : List Glob := []
  deriving DecidableEq, Repr

/-- Why a function has no description. -/
inductive CardProblem where
  | noFolder
  | notFound (path : Text)
  | unreadable (path : Text) (cause : FileError)
  | refused (cause : CardError)
  deriving DecidableEq, Repr

/-- The message for a function that has no description. -/
def CardProblem.message : CardProblem → Text
  | noFolder => "no documentation directory"
  | notFound path => "file not found: " ++ path
  | unreadable path cause => "failed to read " ++ path ++ ": " ++ cause.message
  | refused cause => cause.message

/-- Why no catalog can be collected. -/
inductive HeaderProblem where
  | unreadable (path : Text) (cause : FileError)
  | malformed (path : Text) (cause : DeclarationError)
  deriving DecidableEq, Repr

/-- What was being done when the header failed. -/
def HeaderProblem.context : HeaderProblem → Text
  | unreadable path _ => "failed to read " ++ path
  | malformed path _ => "failed to parse " ++ path

/-- The reason in its own words. -/
def HeaderProblem.reason : HeaderProblem → Text
  | unreadable _ cause => cause.message
  | malformed _ cause => cause.message

/-- Read the card at a path. -/
def Card.load (read : FileReader) (path : Text) : Except CardProblem Description :=
  match read path with
  | .error .notFound => .error (.notFound path)
  | .error e => .error (.unreadable path e)
  | .ok bytes => (Card.read (Utf8.decodeLossy bytes)).mapError .refused

namespace Request

/-- The path of the card of a function, in the folder with the cards. -/
def cardPath (q : Request) (folder function : Text) : Text :=
  Path.join folder (q.family.cardFile function q.extension?)

/-- The description of a function. -/
def description (q : Request) (read : FileReader) (function : Text) :
    Except CardProblem Description :=
  match q.folder? with
  | none => .error .noFolder
  | some folder => Card.load read (q.cardPath folder function)

/-- The entry of a function. -/
def entry (q : Request) (read : FileReader) (p : Prototype) : Entry :=
  match q.description read p.name with
  | .ok d => ⟨p, d, .found⟩
  | .error e => ⟨p, ∅, .missing e.message⟩

/-- What the filters choose, each for itself. -/
def selections (q : Request) : List Selection := q.filters.map Glob.selects

/-- The filters keep a function of that name. -/
def keeps (q : Request) (function : Text) : Bool := Selection.keep q.selections function

/-- The prototypes in the header, in order. -/
def prototypes (q : Request) (read : FileReader) : Except HeaderProblem (List Prototype) :=
  match read q.header with
  | .error e => .error (.unreadable q.header e)
  | .ok bytes =>
    match Utf8.decode? bytes with
    | none => .error (.unreadable q.header .notUtf8)
    | some t => (Header.prototypes q.family t).mapError (.malformed q.header)

/-- The catalog of the header under these selections: an entry for every prototype whose name
they keep. -/
def collectBy (q : Request) (selections : List Selection) (read : FileReader) :
    Except HeaderProblem Catalog :=
  (q.prototypes read).map fun ps =>
    ⟨q.family, q.header, (ps.filter (Selection.keep selections ·.name)).map (q.entry read)⟩

/-- The catalog of the header: an entry for every prototype that the filters keep. -/
def collect (q : Request) (read : FileReader) : Except HeaderProblem Catalog :=
  q.collectBy q.selections read

/-- The paths that are read besides the header, once the header can be read. -/
def cardPaths (q : Request) (read : FileReader) : List Text :=
  match q.folder?, q.prototypes read with
  | some folder, .ok ps => (ps.filter (q.keeps ·.name)).map (q.cardPath folder ·.name)
  | _, _ => []

end Request

end HeaderCards
