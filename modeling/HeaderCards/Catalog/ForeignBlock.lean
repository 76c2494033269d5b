import HeaderCards.Catalog
import HeaderCards.Markdown
import HeaderCards.Path
import HeaderCards.Text.Block
import HeaderCards.Text.Lines

/-!
# Foreign blocks

A catalog as one block of foreign function declarations in Rust, each under a documentation
comment. All text from a card stands inside comment lines: purpose and notes are escaped,
remarks keep their layout inside a text fence. Names and types come from the prototype.
-/

namespace HeaderCards

/-- Words that can name a parameter only as raw identifiers. -/
def keywords : List Text :=
  ["abstract", "as", "async", "await", "become", "box", "break", "const", "continue", "do",
   "dyn", "else", "enum", "extern", "false", "final", "fn", "for", "if", "impl", "in", "let",
   "loop", "macro", "match", "mod", "move", "mut", "override", "priv", "pub", "ref", "return",
   "static", "struct", "trait", "true", "try", "type", "typeof", "unsafe", "unsized", "use",
   "virtual", "where", "while", "yield"].map String.toList

/-- Words that cannot even be raw identifiers. -/
def reserved : List Text := ["crate", "self", "Self", "super"]

/-- The identifier for a parameter of that name. -/
def identifier (name : Text) : Text :=
  if name ∈ reserved then name ++ "_"
  else if name ∈ keywords then "r#" ++ name
  else name

/-- The line with a period at its end, unless it is empty. -/
def withPeriod (line : Text) : Text :=
  if line = [] ∨ line.getLast? = some '.' then line else line ++ "."

/-- The head of an argument's item. -/
def itemHead (name : Text) : Text := "* `" ++ name ++ "` - "

/-- A further line of an argument's item. -/
def itemLine (line : Text) : Text := if line = [] then [] else "  " ++ Markdown.escape line

/-- The item of an argument with a note: the direction and the first line, and then the
further lines. -/
def Note.item (n : Note) (name : Text) : List Text :=
  let head := itemHead name ++ Markdown.escape n.direction.tag
  match n.lines with
  | [] => [head]
  | first :: rest =>
    (if first = [] then head else head ++ " " ++ Markdown.escape (withPeriod first)) ::
      rest.map itemLine

/-- The item of an argument. -/
def Pairing.item (f : Family) (p : Pairing) : List Text :=
  match p.note? with
  | some n => n.item p.argument.name
  | none => [itemHead p.argument.name ++ f.fallback p.argument.name]

namespace Description

/-- The purpose, or that there is none. -/
def summary (d : Description) : List Text :=
  if d.purpose.isEmpty then [noDescription] else (Block.dedent d.purpose).map Markdown.escape

/-- The section on the return value: what the note on `info` says behind its first line. -/
def returns (d : Description) : List Text :=
  match d.note? "info" with
  | none => []
  | some n =>
    match n.lines.drop 1 with
    | [] => []
    | ls => [[], "# Returns", []] ++ ls.map Markdown.escape

/-- The section with the remarks. -/
def remarksSection (d : Description) : List Text :=
  if d.remarks.isEmpty then []
  else [[], "# Remarks", [], "```text"] ++ Block.dedent d.remarks ++ [("```" : Text)]

end Description

namespace Binding

/-- The documentation of a function in front of its remarks. -/
def documentationHead (b : Binding) : List Text :=
  b.description.summary ++ [[], "# Arguments", []] ++
    b.arguments.flatMap (Pairing.item b.family ·.toPairing) ++ b.description.returns

/-- The documentation of a function. -/
def documentation (b : Binding) : List Text :=
  b.documentationHead ++ b.description.remarksSection

/-- A line of documentation as a comment. -/
def commentLine (line : Text) : Text :=
  if line = [] then "    ///" else "    /// " ++ line

/-- A parameter of the declaration. -/
def parameterLine (a : BoundArgument) : Text :=
  "        " ++ identifier a.argument.name ++ ": " ++ a.type.name ++ ","

/-- The end of the declaration, with the type of the return value unless it is empty. -/
def resultLine (result : BindingType) : Text :=
  if result = .unit then "    );" else "    ) -> " ++ result.name ++ ";"

/-- The declaration of the function. -/
def declaration (b : Binding) : List Text :=
  ("    pub fn " ++ b.prototype.name ++ "(") ::
    (b.arguments.map parameterLine ++ [resultLine b.result])

/-- The function: its documentation in comments, and its declaration. -/
def lines (b : Binding) : List Text := b.documentation.map commentLine ++ b.declaration

end Binding

/-- The block for these functions of a header. -/
def foreignBlock (header : Text) (bindings : List Binding) : List Text :=
  ["// Generated by blasgen from " ++ (Path.fileName? header).getD header ++ ". Do not edit.",
   [],
   "#![allow(non_snake_case, unused_imports, clippy::too_many_arguments)]",
   [],
   "use std::os::raw::\x7bc_char, c_void\x7d;",
   [],
   "use super::*;",
   [],
   "extern \"C\" \x7b"] ++
    List.intercalate [[]] (bindings.map Binding.lines) ++ [("\x7d" : Text)]

/-- The foreign block of a catalog. -/
def Catalog.foreignBlock (c : Catalog) : Except MappingError Text :=
  c.bindings.map fun bindings => Text.unlines (HeaderCards.foreignBlock c.header bindings)

end HeaderCards
