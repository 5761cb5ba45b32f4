import MapScript.Json.Numeral

/-!
# JSON values

The value type of the documents the program reads and writes. Objects keep the order and the
repetitions of their members, because readers decide what a repeated name means.
-/

namespace MapScript

/-- A string as a document writes it. -/
structure Json.Literal where
  /-- What it says; `none` when its escapes leave a surrogate unpaired, which is well formed but
  denotes no text. -/
  text : Option String
  /-- Whether it is written without escapes. -/
  plain : Bool
deriving DecidableEq, Inhabited, Repr

/-- Whether a character stands for itself inside a string. -/
def Json.isPlain (c : Char) : Bool := c ≠ '"' && c ≠ '\\' && 0x20 ≤ c.toNat

/-- The literal of a text, which escapes no more than it must. -/
def Json.Literal.ofString (s : String) : Literal := ⟨some s, s.toList.all isPlain⟩

inductive Json where
  | null
  | bool (value : Bool)
  /-- A number written as an integer. -/
  | int (value : Int)
  /-- A number written with a fraction or an exponent, or as minus zero, without its sign. -/
  | real (value : Numeral)
  | str (literal : Json.Literal)
  | arr (items : List Json)
  | obj (members : List (Json.Literal × Json))
deriving Inhabited, Repr

namespace Json

/-- A string value. -/
def text (s : String) : Json := .str (.ofString s)

/-- An object with the given members. -/
def record (members : List (String × Json)) : Json :=
  .obj (members.map fun (name, value) => (.ofString name, value))

def nat (n : Nat) : Json := .int n

def int32 (n : Int32) : Json := .int n.toInt

def uint32 (n : UInt32) : Json := .int n.toNat

def uint64 (n : UInt64) : Json := .int n.toNat

/-- A value that may be missing, written as `null` when it is. -/
def nullable (f : α → Json) : Option α → Json
  | none => .null
  | some a => f a

def list (f : α → Json) (items : List α) : Json := .arr (items.map f)

end Json

end MapScript
