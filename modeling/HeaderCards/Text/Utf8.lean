import HeaderCards.Text

/-!
# UTF-8

Bytes are decoded one at a time. The decoder knows how many bytes of the current character
are still owed and which values the next of them may have, so that overlong forms,
surrogates and values beyond the last code point are found at the first byte that rules
them out. What has been read of a character up to there is one malformed part, and the
offending byte is looked at afresh.
-/

namespace HeaderCards.Utf8

/-- What is owed of a character that has begun. -/
structure Owed where
  /-- The bytes behind the next one. -/
  behind : Nat
  /-- The least value the next byte may have. -/
  least : Nat
  /-- The greatest value the next byte may have. -/
  greatest : Nat
  /-- The bits read so far. -/
  bits : Nat
  deriving DecidableEq, Repr

/-- The decoder: what is owed, and the characters read, the newest first. A malformed part
is read as no character. -/
structure Decoder where
  owed : Option Owed := none
  read : List (Option Char) := []
  deriving DecidableEq, Repr

/-- Look at a byte with which a character may begin. -/
def Decoder.start (read : List (Option Char)) (b : Nat) : Decoder :=
  if b < 0x80 then ⟨none, some (Char.ofNat b) :: read⟩
  else if b < 0xC2 then ⟨none, none :: read⟩
  else if b < 0xE0 then ⟨some ⟨0, 0x80, 0xBF, b % 0x20⟩, read⟩
  else if b = 0xE0 then ⟨some ⟨1, 0xA0, 0xBF, 0⟩, read⟩
  else if b = 0xED then ⟨some ⟨1, 0x80, 0x9F, 0xD⟩, read⟩
  else if b < 0xF0 then ⟨some ⟨1, 0x80, 0xBF, b % 0x10⟩, read⟩
  else if b = 0xF0 then ⟨some ⟨2, 0x90, 0xBF, 0⟩, read⟩
  else if b < 0xF4 then ⟨some ⟨2, 0x80, 0xBF, b % 0x08⟩, read⟩
  else if b = 0xF4 then ⟨some ⟨2, 0x80, 0x8F, 4⟩, read⟩
  else ⟨none, none :: read⟩

/-- Look at one more byte. -/
def Decoder.step (d : Decoder) (byte : UInt8) : Decoder :=
  let b := byte.toNat
  match d.owed with
  | none => start d.read b
  | some o =>
    if o.least ≤ b ∧ b ≤ o.greatest then
      let bits := o.bits * 0x40 + b % 0x40
      match o.behind with
      | 0 => ⟨none, some (Char.ofNat bits) :: d.read⟩
      | n + 1 => ⟨some ⟨n, 0x80, 0xBF, bits⟩, d.read⟩
    else start (none :: d.read) b

/-- The characters of the bytes in order, and no character for every malformed part. -/
def decode (bytes : List UInt8) : List (Option Char) :=
  let d := bytes.foldl Decoder.step {}
  (if d.owed.isSome then none :: d.read else d.read).reverse

/-- The text of the bytes, if no part is malformed. -/
def decode? (bytes : List UInt8) : Option Text := (decode bytes).mapM id

/-- The text of the bytes, with the replacement character for every malformed part. -/
def decodeLossy (bytes : List UInt8) : Text := (decode bytes).map (·.getD '\ufffd')

/-- The bytes of a text. -/
def encode (t : Text) : List UInt8 := t.flatMap String.utf8EncodeChar

end HeaderCards.Utf8
