import HeaderCards.Binding

/-!
# Catalogs

A catalog lists the functions of one header in order, each with what its card says. A
function whose card could not be read is listed with an empty description and the reason.
-/

namespace HeaderCards

/-- Whether the card of a function was read. -/
inductive CardStatus where
  | found
  | missing (reason : Text)
  deriving DecidableEq, Repr

/-- The status as it is reported. -/
def CardStatus.describe : CardStatus → Text
  | found => "OK"
  | missing reason => reason

/-- One function of a header and what its card says. -/
structure Entry where
  prototype : Prototype
  description : Description
  status : CardStatus
  deriving DecidableEq, Repr

/-- The name of the function and its status. -/
def Entry.statusLine (e : Entry) : Text := e.prototype.name ++ " ... " ++ e.status.describe

/-- Every argument of the function with the note on it. -/
def Entry.pairs (e : Entry) (f : Family) : List Pairing := e.prototype.pair f e.description

/-- Bind the function. -/
def Entry.bind (e : Entry) (f : Family) : Except UnknownType Binding :=
  e.prototype.bind f e.description

/-- The functions of one header, in order. -/
structure Catalog where
  family : Family
  /-- The path of the header, as it was given. -/
  header : Text
  entries : List Entry
  deriving DecidableEq, Repr

/-- A function that cannot be bound, and the type that is to blame. -/
structure MappingError where
  function : Text
  cause : UnknownType
  deriving DecidableEq, Repr

/-- What was being done when the function could not be bound. -/
def MappingError.context (e : MappingError) : Text := "failed to map types of " ++ e.function

/-- Bind an entry of a catalog, naming its function when that fails. -/
def Entry.bindNamed (f : Family) (e : Entry) : Except MappingError Binding :=
  (e.bind f).mapError (⟨e.prototype.name, ·⟩)

/-- Bind every function in order; the first that cannot be bound fails the catalog. -/
def Catalog.bindings (c : Catalog) : Except MappingError (List Binding) :=
  c.entries.mapM (Entry.bindNamed c.family)

end HeaderCards
