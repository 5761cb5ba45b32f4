/-!
# UTF-8

Encoding of text into bytes, and the forgiving decoder used for string tables: every maximal
ill-formed run of bytes becomes one replacement character.
-/

namespace MapScript.Text.Utf8

/-- The bytes of a text. -/
def encode (text : String) : List UInt8 :=
  text.toList.flatMap String.utf8EncodeChar

/-- Stands for bytes that are not UTF-8. -/
def replacement : Char := '\ufffd'

/-- A character whose first bytes have been read: its value so far, the range the next byte must
lie in, and how many bytes are owed after that one. -/
structure Partial where
  value : Nat
  low : UInt8
  high : UInt8
  owed : Nat
deriving DecidableEq, Repr

/-- What the first byte of a character announces; `none` for a byte that cannot come first. -/
def announce (b : UInt8) : Option Partial :=
  if 0xC2 ≤ b ∧ b ≤ 0xDF then some ⟨b.toNat % 32, 0x80, 0xBF, 0⟩
  else if b = 0xE0 then some ⟨0, 0xA0, 0xBF, 1⟩
  else if b = 0xED then some ⟨13, 0x80, 0x9F, 1⟩
  else if 0xE1 ≤ b ∧ b ≤ 0xEF then some ⟨b.toNat % 16, 0x80, 0xBF, 1⟩
  else if b = 0xF0 then some ⟨0, 0x90, 0xBF, 2⟩
  else if 0xF1 ≤ b ∧ b ≤ 0xF3 then some ⟨b.toNat % 8, 0x80, 0xBF, 2⟩
  else if b = 0xF4 then some ⟨4, 0x80, 0x8F, 2⟩
  else none

/-- Reads a byte between characters: the characters it completes and the one it leaves open. -/
def begin (b : UInt8) : List Char × Option Partial :=
  if b < 0x80 then ([Char.ofNat b.toNat], none)
  else match announce b with
    | some p => ([], some p)
    | none => ([replacement], none)

/-- Reads a byte inside a character. A byte out of range ends the open character as ill-formed and
is read again as a first byte. -/
def extend (p : Partial) (b : UInt8) : List Char × Option Partial :=
  if p.low ≤ b ∧ b ≤ p.high then
    let value := p.value * 64 + b.toNat % 64
    match p.owed with
    | 0 => ([Char.ofNat value], none)
    | owed + 1 => ([], some ⟨value, 0x80, 0xBF, owed⟩)
  else
    let (cs, state) := begin b
    (replacement :: cs, state)

/-- Decodes from a given point of a character. -/
def decodeFrom : Option Partial → List UInt8 → List Char
  | none, [] => []
  | some _, [] => [replacement]
  | none, b :: bs => let (cs, state) := begin b; cs ++ decodeFrom state bs
  | some p, b :: bs => let (cs, state) := extend p b; cs ++ decodeFrom state bs

/-- The text of a byte string, with one replacement character for each maximal ill-formed run. -/
def decodeLossy (bytes : List UInt8) : String :=
  String.ofList (decodeFrom none bytes)

end MapScript.Text.Utf8
