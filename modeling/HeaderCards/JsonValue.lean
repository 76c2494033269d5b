import HeaderCards.Text

/-!
# JSON values

Records keep the order of their fields. A value is laid out with one item or field a line,
two blanks for every level of nesting, and empty lists on one line.
-/

namespace HeaderCards

/-- The JSON values a catalog is made of. -/
inductive JsonValue where
  | text (t : Text)
  | list (items : List JsonValue)
  | record (fields : List (Text × JsonValue))

namespace JsonValue

/-- The written form of one character of a text. -/
def escapeChar (c : Char) : Text :=
  match c with
  | '"' => "\\\""
  | '\\' => "\\\\"
  | '\n' => "\\n"
  | '\r' => "\\r"
  | '\t' => "\\t"
  | '\x08' => "\\b"
  | '\x0c' => "\\f"
  | c =>
    if c.toNat < 0x20 then
      "\\u00" ++ [Nat.digitChar (c.toNat / 16), Nat.digitChar (c.toNat % 16)]
    else [c]

/-- The text in quotation marks. -/
def quote (t : Text) : Text := '"' :: (t.flatMap escapeChar ++ ['"'])

/-- Parts between brackets, each on a line of its own at the next level of nesting. -/
def bracket (first last : Char) (depth : Nat) (parts : List Text) : Text :=
  if parts.isEmpty then [first, last]
  else
    [first, '\n'] ++
      List.intercalate ",\n" (parts.map (List.replicate (2 * (depth + 1)) ' ' ++ ·)) ++
      '\n' :: (List.replicate (2 * depth) ' ' ++ [last])

mutual

/-- The value at a level of nesting. -/
def layout (depth : Nat) : JsonValue → Text
  | .text t => quote t
  | .list items => bracket '[' ']' depth (layoutItems (depth + 1) items)
  | .record fields => bracket '{' '}' depth (layoutFields (depth + 1) fields)

/-- The items of a list at a level of nesting. -/
def layoutItems (depth : Nat) : List JsonValue → List Text
  | [] => []
  | v :: vs => layout depth v :: layoutItems depth vs

/-- The fields of a record at a level of nesting. -/
def layoutFields (depth : Nat) : List (Text × JsonValue) → List Text
  | [] => []
  | (name, v) :: fs => (quote name ++ ": " ++ layout depth v) :: layoutFields depth fs

end

/-- The value on lines of its own. -/
def render (v : JsonValue) : Text := layout 0 v ++ "\n"

end JsonValue

end HeaderCards
