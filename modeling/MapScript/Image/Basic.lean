import MapScript.Instruction.Basic
import MapScript.Json.Basic

/-!
# Script images

What a compiled script lump holds once it is loaded: the scripts it declares, its string table and
the instructions its scripts can reach.
-/

namespace MapScript

/-- A script an image declares. -/
structure ScriptInfo where
  number : Int32
  /-- The cell of the first instruction. -/
  entry : Nat
  argCount : Nat
  /-- Started by itself when its map is loaded. -/
  isOpen : Bool
deriving DecidableEq, Repr

namespace ScriptInfo

def toJson (info : ScriptInfo) : Json :=
  .record [("number", .int32 info.number), ("entry", .nat info.entry),
    ("arg_count", .nat info.argCount), ("open", .bool info.isOpen)]

end ScriptInfo

/-- Decoded instructions at their cells. -/
structure Program where
  slots : Array (Option Decoded)
deriving DecidableEq, Repr

namespace Program

def empty : Program := ⟨#[]⟩

/-- The instruction at a cell. -/
def fetch (p : Program) (pc : Nat) : Option Decoded := p.slots[pc]?.join

/-- Whether an instruction starts at a cell. -/
def isBoundary (p : Program) (pc : Nat) : Bool := (p.fetch pc).isSome

/-- The instructions in the order of their cells. -/
def toList (p : Program) : List (Nat × Decoded) :=
  p.slots.toList.zipIdx.filterMap fun (slot, pc) => slot.map (pc, ·)

/-- The number of instructions. -/
def size (p : Program) : Nat := p.slots.countP Option.isSome

def isEmpty (p : Program) : Bool := p.size == 0

end Program

/-- A loaded script image. -/
structure Image where
  scripts : List ScriptInfo
  strings : Array String
  program : Program
  byteSize : Nat
deriving DecidableEq, Repr

namespace Image

/-- The image of a map without scripts. -/
def empty : Image := ⟨[], #[], .empty, 0⟩

def isEmpty (image : Image) : Bool := image.scripts.isEmpty

/-- The place and declaration of a script. -/
def findScript? (image : Image) (number : Int32) : Option (Nat × ScriptInfo) := do
  let index ← image.scripts.findIdx? (·.number = number)
  return (index, ← image.scripts[index]?)

/-- A string of the string table. -/
def string? (image : Image) (index : Int32) : Option String :=
  if index < 0 then none else image.strings[index.toInt.toNat]?

end Image

end MapScript
