import HeaderCards.Catalog
import HeaderCards.Text.Lines

/-!
# Coverage

The coverage check lists the functions whose arguments are not all documented. The layout
selector never has a note, so a function that lacks only that one is covered.
-/

namespace HeaderCards

namespace Entry

/-- The names of the arguments without a note. -/
def undocumented (e : Entry) (f : Family) : List Text :=
  ((e.pairs f).filter (·.note?.isNone)).map (·.argument.name)

/-- Nothing lacks a note, or one layout selector alone. -/
def isCovered (e : Entry) (f : Family) : Bool :=
  match e.undocumented f with
  | [] => true
  | [name] => f.isLayout name
  | _ => false

/-- One argument and whether it has a note. -/
def coverageLine (p : Pairing) : Text :=
  "    " ++ p.argument.name ++ ": " ++
    (if p.note?.isSome then ("OK" : Text) else "Not found!")

/-- What the check says about one function. -/
def coverage (f : Family) (e : Entry) : List Text :=
  match e.status with
  | .missing reason => [e.prototype.name ++ " -> " ++ reason, []]
  | .found =>
    if e.isCovered f then []
    else e.prototype.name :: ((e.pairs f).map coverageLine ++ [[]])

end Entry

/-- What the check says about a catalog. -/
def Catalog.coverage (c : Catalog) : Text :=
  Text.unlines (c.entries.flatMap (Entry.coverage c.family))

end HeaderCards
