import MapScript.Opcode
import MapScript.Image.Parser

/-!
# Assembling an image

A draft of an image grows by script declarations, strings, cells and labels; a branch to a label is
left open and filled in when the image is built.
-/

namespace MapScript

/-- A script declared in a draft. -/
structure DraftScript where
  number : Int32
  /-- The cell of the draft's code at which the script starts. -/
  entry : Nat
  argCount : Int32
deriving DecidableEq, Repr

/-- An image being assembled. -/
structure Draft where
  code : Array Int32 := #[]
  scripts : Array DraftScript := #[]
  strings : Array String := #[]
  /-- The cell each label is bound to. -/
  labels : Array (Option Nat) := #[]
  /-- The cells that hold the offset of a label. -/
  fixups : Array (Nat × Nat) := #[]
deriving DecidableEq, Repr

namespace Draft

def empty : Draft := {}

/-- Declares a script that starts with the next cell. -/
def script (d : Draft) (number argCount : Int32) : Draft :=
  { d with scripts := d.scripts.push ⟨number, d.code.size, argCount⟩ }

/-- Adds a string unless it is there, and gives its index. -/
def string (d : Draft) (text : String) : Nat × Draft :=
  match d.strings.findIdx? (· = text) with
  | some index => (index, d)
  | none => (d.strings.size, { d with strings := d.strings.push text })

/-- Emits one cell. -/
def emit (d : Draft) (cell : Int32) : Draft := { d with code := d.code.push cell }

/-- Emits an opcode and its operands. -/
def op (d : Draft) (op : Opcode) (operands : List Int32) : Draft :=
  operands.foldl emit (d.emit op.code)

/-- Makes a new label, and gives its number. -/
def label (d : Draft) : Nat × Draft :=
  (d.labels.size, { d with labels := d.labels.push none })

/-- Binds a label to the next cell. -/
def bind (d : Draft) (label : Nat) : Draft :=
  { d with labels := d.labels.setIfInBounds label (some d.code.size) }

/-- Emits a cell that will hold the offset of a label. -/
def reference (d : Draft) (label : Nat) : Draft :=
  { d with fixups := d.fixups.push (d.code.size, label) }.emit 0

/-- Emits a branch to a label. -/
def branch (d : Draft) (op : Opcode) (label : Nat) : Draft :=
  (d.emit op.code).reference label

/-- Emits a branch that is taken when the top of the stack is `value`. -/
def caseBranch (d : Draft) (value : Int32) (label : Nat) : Draft :=
  (d.op .caseGoto [value]).reference label

/-- The byte offset of a cell of the draft's code in the image, as a word of the image. -/
def cellOffset (cell : Nat) : UInt32 := UInt32.ofNat (Image.headerSize + cellSize * cell)

/-- The cell a label is bound to. -/
def target? (d : Draft) (label : Nat) : Option Nat := d.labels[label]?.join

/-- A label that is used but bound to no cell. -/
structure UnboundLabel where
  label : Nat
deriving DecidableEq, Repr

def UnboundLabel.message (e : UnboundLabel) : String := s!"label {e.label} never bound"

/-- Fills in the offset of a label at the cell that holds it. -/
def fill (d : Draft) (code : Array Int32) :
    Nat × Nat → Except UnboundLabel (Array Int32)
  | (cell, label) =>
    match d.target? label with
    | some target => .ok (code.setIfInBounds cell (cellOffset target).toInt32)
    | none => .error ⟨label⟩

/-- The code with the offsets of the labels filled in. -/
def resolve (d : Draft) : Except UnboundLabel (Array Int32) := d.fixups.foldlM d.fill d.code

/-- The bytes of each string, with the zero byte that ends it. -/
def stringBytes (d : Draft) : List (List UInt8) :=
  d.strings.toList.map fun text => Text.Utf8.encode text ++ [0]

/-- The offsets of consecutive pieces, the first at `start`. -/
def offsets (start : Nat) : List (List UInt8) → List Nat
  | [] => []
  | piece :: rest => start :: offsets (start + piece.length) rest

/-- The zero bytes that fill the last cell of `size` bytes. -/
def padding (size : Nat) : List UInt8 := List.replicate ((cellSize - size % cellSize) % cellSize) 0

/-- The bytes of the strings, filled up to a whole cell where they start at `start`. -/
def stringArea (d : Draft) (start : Nat) : List UInt8 :=
  d.stringBytes.flatten ++ padding (start + d.stringBytes.flatten.length)

/-- The words of the info table. -/
def infoTable (d : Draft) (stringOffsets : List Nat) : List UInt32 :=
  UInt32.ofNat d.scripts.size ::
    (d.scripts.toList.flatMap fun s => [s.number.toUInt32, cellOffset s.entry, s.argCount.toUInt32])
    ++ UInt32.ofNat stringOffsets.length :: stringOffsets.map UInt32.ofNat

/-- The bytes of the finished image: header, code, strings and info table. -/
def build (d : Draft) : Except UnboundLabel (List UInt8) := do
  let code ← d.resolve
  let codeBytes := Word.join (code.toList.map Int32.toUInt32)
  let stringStart := Image.headerSize + codeBytes.length
  let strings := d.stringArea stringStart
  let infoOffset := UInt32.ofNat (stringStart + strings.length)
  return Image.signature ++ Word.toBytes infoOffset ++ codeBytes ++ strings
    ++ Word.join (d.infoTable (offsets stringStart d.stringBytes))

end Draft

end MapScript
