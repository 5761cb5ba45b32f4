import MapScript.Fault
import MapScript.SpecialArgs

/-!
# Operand stacks

The bounded stack of one script instance, and the computations that take operands from it. Such a
computation can fault, and then the operands it has taken stay taken.
-/

namespace MapScript

structure OperandStack where
  /-- The operands, the top first. -/
  cells : List Int32
deriving DecidableEq, Repr

namespace OperandStack

/-- How many operands fit. -/
def depth : Nat := 32

def empty : OperandStack := ⟨[]⟩

def isEmpty (s : OperandStack) : Bool := s.cells.isEmpty

/-- The operands in the order they were pushed. -/
def toList (s : OperandStack) : List Int32 := s.cells.reverse

def ofList (values : List Int32) : OperandStack := ⟨values.reverse⟩

/-- Whether the operands are within the bound. -/
def fits (s : OperandStack) : Bool := s.cells.length ≤ depth

def push (s : OperandStack) (value : Int32) : Except Fault OperandStack :=
  if s.cells.length < depth then .ok ⟨value :: s.cells⟩ else .error .stackOverflow

@[simp] theorem toList_ofList (values : List Int32) : (ofList values).toList = values :=
  List.reverse_reverse values

@[simp] theorem ofList_toList (s : OperandStack) : ofList s.toList = s := by
  simp [ofList, toList]

def toJson (s : OperandStack) : Json := .record [("cells", .list .int32 s.toList)]

def ofJson? (j : Json) : Option OperandStack := do
  let ms ← j.fields? ["cells"]
  return ofList (← Json.required? "cells" (·.list? Json.int32?) ms)

end OperandStack

/-- A computation that takes operands from a stack. -/
abbrev Operands := EStateM Fault OperandStack

namespace Operands

/-- Takes the top operand. -/
def pop : Operands Int32 := fun s =>
  match s.cells with
  | [] => .error .stackUnderflow s
  | v :: rest => .ok v ⟨rest⟩

/-- Looks at the top operand. -/
def top : Operands Int32 := fun s =>
  match s.cells with
  | [] => .error .stackUnderflow s
  | v :: _ => .ok v s

/-- Takes `n` operands and gives them in the order they were pushed. -/
def popMany : Nat → Operands (List Int32)
  | 0 => return []
  | n + 1 => do
    let last ← pop
    return (← popMany n) ++ [last]

/-- Takes the arguments of a line special. -/
def popArgs (argc : Nat) : Operands SpecialArgs := do
  return SpecialArgs.ofList (← popMany argc)

/-- Faults or goes on with a value. -/
def orFault : Except Fault α → Operands α
  | .ok a => return a
  | .error f => throw f

end Operands

end MapScript
