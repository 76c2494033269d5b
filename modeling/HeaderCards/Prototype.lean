import HeaderCards.Text

/-!
# Prototypes

A prototype is a function declared in a header: its return type, its name and its
arguments in order. It is written on one line, the way a header would declare it.
-/

namespace HeaderCards

/-- A declared argument. The stars in front of its name, and those that stand alone, go with the
type, and a qualifier that is a word of its own is left out. Stars and qualifiers that touch other
text are not looked for: they stay where they are. -/
structure Argument where
  type : Text
  name : Text
  deriving DecidableEq, Repr

/-- A declared function. -/
structure Prototype where
  name : Text
  returnType : Text
  arguments : List Argument
  deriving DecidableEq, Repr

/-- The type, one space, and the name. -/
def Argument.render (a : Argument) : Text := a.type ++ " " ++ a.name

/-- The declaration on one line, ended by a semicolon. -/
def Prototype.render (p : Prototype) : Text :=
  p.returnType ++ " " ++ p.name ++ "(" ++
    List.intercalate ", " (p.arguments.map Argument.render) ++ ");"

end HeaderCards
