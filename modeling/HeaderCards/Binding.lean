import HeaderCards.Binding.Vocabulary
import HeaderCards.Pairing

/-!
# Bindings

A binding gives every argument of a prototype and its return value a binding type, and
joins every argument with the note on it. Types come from the prototype alone, so whether a
prototype can be bound does not depend on what is written about it.
-/

namespace HeaderCards

/-- An argument with the note on it and its binding type. -/
structure BoundArgument extends Pairing where
  type : BindingType
  deriving DecidableEq, Repr

/-- A prototype with the binding types of its arguments and of its return value. -/
structure Binding where
  family : Family
  prototype : Prototype
  description : Description
  arguments : List BoundArgument
  result : BindingType
  deriving DecidableEq, Repr

/-- Give a paired argument its binding type. -/
def Pairing.bind (f : Family) (p : Pairing) : Except UnknownType BoundArgument :=
  (f.argumentType p.argument).map fun type => { p with type }

/-- Bind the prototype: the arguments in order, and then the return value. -/
def Prototype.bind (p : Prototype) (f : Family) (d : Description) : Except UnknownType Binding := do
  let arguments ← (p.pair f d).mapM (Pairing.bind f)
  let result ← f.returnType p.returnType p.name
  return ⟨f, p, d, arguments, result⟩

end HeaderCards
