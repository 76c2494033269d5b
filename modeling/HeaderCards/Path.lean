import HeaderCards.Text

/-!
# Paths

A path is a text whose components are separated by slashes. Repeated slashes, a slash at
the end and single dots say nothing.
-/

namespace HeaderCards.Path

/-- The components of a path that say something. -/
def components (path : Text) : List Text :=
  (path.splitOn '/').filter fun c => c ≠ [] ∧ c ≠ ['.']

/-- The name of the file a path leads to, when its last component is a name. -/
def fileName? (path : Text) : Option Text :=
  match (components path).getLast? with
  | none => none
  | some c => if c = ['.', '.'] then none else some c

/-- The path of a file in a directory. -/
def join (directory file : Text) : Text :=
  if directory = [] ∨ directory.getLast? = some '/' then directory ++ file
  else directory ++ '/' :: file

end HeaderCards.Path
