import HeaderCards.Catalog.Coverage
import HeaderCards.Catalog.ForeignBlock
import HeaderCards.Catalog.Listing
import HeaderCards.Catalog.Record

/-!
# Output formats

A catalog can be written in four formats. Listing and coverage need no binding types and
never fail; the other two fail on the first function that cannot be bound.
-/

namespace HeaderCards

/-- The formats a catalog can be written in. -/
inductive OutputFormat where
  | listing
  | coverage
  | record
  | foreignBlock
  deriving DecidableEq, Repr

namespace OutputFormat

/-- The names of the formats; the foreign block has two. -/
def names : List (Text × OutputFormat) :=
  [("report", listing), ("check", coverage), ("json", record), ("rust", foreignBlock),
   ("rs", foreignBlock)]

/-- The format of that very name. -/
def ofName? (name : Text) : Option OutputFormat := names.lookup name

/-- The message for a name that no format has. -/
def unknownMessage (name : Text) : Text :=
  "unknown format: " ++ name ++ ". Use report, check, json, or rust"

end OutputFormat

/-- Write the catalog in a format. -/
def Catalog.write (c : Catalog) : OutputFormat → Except MappingError Text
  | .listing => .ok c.listing
  | .coverage => .ok c.coverage
  | .record => c.record
  | .foreignBlock => c.foreignBlock

end HeaderCards
