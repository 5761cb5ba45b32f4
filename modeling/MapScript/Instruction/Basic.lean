import MapScript.SpecialArgs

/-!
# Instructions

Decoded instructions, with the operators and variable scopes they name. Branch targets are cell
numbers of the image.
-/

namespace MapScript

/-- Where a variable lives: with one script instance, with the loaded map, or with the game. -/
inductive VarScope where
  | script
  | map
  | world
deriving DecidableEq, Repr

namespace VarScope

/-- How many variables a scope has. -/
def capacity : VarScope → Nat
  | script => 10
  | map => 32
  | world => 64

end VarScope

/-- What a variable instruction does with its variable. -/
inductive VarOp where
  | assign | push | add | sub | mul | div | mod | inc | dec
deriving DecidableEq, Repr

inductive BinaryOp where
  | add | subtract | multiply | divide | modulus
  | eq | ne | lt | gt | le | ge
  | andLogical | orLogical | andBitwise | orBitwise | eorBitwise
  | lShift | rShift
deriving DecidableEq, Repr

inductive UnaryOp where
  | negateLogical | minus
deriving DecidableEq, Repr

/-- The two flats of a sector. -/
inductive Surface where
  | floor | ceiling
deriving DecidableEq, Repr

inductive Instruction where
  | nop
  | terminate
  | suspend
  | pushNumber (value : Int32)
  /-- A line special with its arguments on the stack, the last on top. -/
  | lineSpecial (special : Int32) (argc : Nat)
  /-- A line special with its arguments in the code. -/
  | lineSpecialDirect (special : Int32) (argc : Nat) (args : SpecialArgs)
  | binary (op : BinaryOp)
  | unary (op : UnaryOp)
  | variable (op : VarOp) (scope : VarScope) (index : Nat)
  | goto (target : Nat)
  | ifGoto (target : Nat)
  | ifNotGoto (target : Nat)
  | caseGoto (value : Int32) (target : Nat)
  | drop
  | delay
  | delayDirect (ticks : Int32)
  /-- A random number between two bounds on the stack, the upper on top. -/
  | random
  | randomDirect (min max : Int32)
  | thingCount
  | thingCountDirect (thingType tid : Int32)
  | tagWait
  | tagWaitDirect (tag : Int32)
  | polyWait
  | polyWaitDirect (poly : Int32)
  | scriptWait
  | scriptWaitDirect (script : Int32)
  | changeFlat (surface : Surface)
  | changeFlatDirect (surface : Surface) (tag flat : Int32)
  | restart
  | lineSide
  | clearLineSpecial
  | beginPrint
  | printString
  | printNumber
  | printCharacter
  | endPrint
  | endPrintBold
  | playerCount
  | gameType
  | gameSkill
  | timer
  | sectorSound
  | ambientSound
  | soundSequence
  | thingSound
  | setLineTexture
  | setLineBlocking
  | setLineSpecial
  /-- A cell that names no opcode; running it is a fault. -/
  | unknown (code : Int32)
deriving DecidableEq, Repr

namespace Instruction

/-- Whether execution can go on with the cell after the instruction. -/
def fallsThrough : Instruction → Bool
  | terminate | restart | goto _ | unknown _ => false
  | _ => true

/-- The cell an instruction can branch to. -/
def branchTarget? : Instruction → Option Nat
  | goto target | ifGoto target | ifNotGoto target | caseGoto _ target => some target
  | _ => none

end Instruction

/-- An instruction and the cell after it. -/
structure Decoded where
  instruction : Instruction
  next : Nat
deriving DecidableEq, Repr

end MapScript
