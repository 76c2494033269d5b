import HeaderCards.Catalog
import HeaderCards.JsonValue

/-!
# Records

A catalog as one JSON record: its family, its header, and for every function the prototype,
the binding types and what is written about it. An argument without a note has no `doc`
field.
-/

namespace HeaderCards

/-- A list of texts. -/
def JsonValue.texts (ts : List Text) : JsonValue := .list (ts.map .text)

/-- The direction in a record. -/
def Direction.label : Direction → Text
  | input => "In"
  | output => "Out"
  | both => "InOut"

/-- The note in a record. -/
def Note.record (n : Note) : JsonValue :=
  .record
    [("name", .text n.name), ("direction", .text n.direction.label),
     ("description", .texts n.lines)]

/-- The argument in a record. -/
def BoundArgument.record (a : BoundArgument) : JsonValue :=
  .record
    ([(("name" : Text), .text a.argument.name), ("type", .text a.argument.type),
      ("binding", .text a.type.name)] ++
      (a.note?.map fun n => (("doc" : Text), n.record)).toList)

/-- The function in a record. -/
def Binding.record (b : Binding) (status : CardStatus) : JsonValue :=
  .record
    [("name", .text b.prototype.name), ("return_type", .text b.prototype.returnType),
     ("return_binding", .text b.result.name), ("status", .text status.describe),
     ("purpose", .texts b.description.purpose),
     ("arguments", .list (b.arguments.map BoundArgument.record)),
     ("remarks", .texts b.description.remarks)]

/-- The record of a catalog. -/
def Catalog.record (c : Catalog) : Except MappingError Text :=
  c.bindings.map fun bindings =>
    JsonValue.render <| .record
      [("family", .text c.family.name), ("header", .text c.header),
       ("functions", .list (bindings.zipWith Binding.record (c.entries.map Entry.status)))]

end HeaderCards
