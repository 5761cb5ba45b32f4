import MapScript.Opcode
import MapScript.Instruction.Basic

/-!
# Instruction forms

How the cells after an opcode are read. The form of an opcode fixes both the number of its operand
cells and the instruction they make, so the two cannot disagree.
-/

namespace MapScript

/-- How an opcode's operand cells make an instruction. -/
inductive Form where
  /-- No operands. -/
  | plain (instruction : Instruction)
  /-- One number. -/
  | number (make : Int32 → Instruction)
  /-- Two numbers. -/
  | numbers (make : Int32 → Int32 → Instruction)
  /-- A special and its arguments. -/
  | direct (argc : Fin 6)
  /-- A variable of the scope. -/
  | access (op : VarOp) (scope : VarScope)
  /-- A code offset. -/
  | branch (make : Nat → Instruction)
  /-- A number and a code offset. -/
  | caseBranch (make : Int32 → Nat → Instruction)

namespace Form

/-- The number of operand cells. -/
def width : Form → Nat
  | plain _ => 0
  | number _ | access _ _ | branch _ => 1
  | numbers _ | caseBranch _ => 2
  | direct argc => argc + 1

end Form

namespace Opcode

/-- The form of each opcode. -/
def form : Opcode → Form
  | nop => .plain .nop
  | terminate => .plain .terminate
  | suspend => .plain .suspend
  | pushNumber => .number .pushNumber
  | lSpec1 => .number (.lineSpecial · 1)
  | lSpec2 => .number (.lineSpecial · 2)
  | lSpec3 => .number (.lineSpecial · 3)
  | lSpec4 => .number (.lineSpecial · 4)
  | lSpec5 => .number (.lineSpecial · 5)
  | lSpec1Direct => .direct 1
  | lSpec2Direct => .direct 2
  | lSpec3Direct => .direct 3
  | lSpec4Direct => .direct 4
  | lSpec5Direct => .direct 5
  | add => .plain (.binary .add)
  | subtract => .plain (.binary .subtract)
  | multiply => .plain (.binary .multiply)
  | divide => .plain (.binary .divide)
  | modulus => .plain (.binary .modulus)
  | eq => .plain (.binary .eq)
  | ne => .plain (.binary .ne)
  | lt => .plain (.binary .lt)
  | gt => .plain (.binary .gt)
  | le => .plain (.binary .le)
  | ge => .plain (.binary .ge)
  | assignScriptVar => .access .assign .script
  | assignMapVar => .access .assign .map
  | assignWorldVar => .access .assign .world
  | pushScriptVar => .access .push .script
  | pushMapVar => .access .push .map
  | pushWorldVar => .access .push .world
  | addScriptVar => .access .add .script
  | addMapVar => .access .add .map
  | addWorldVar => .access .add .world
  | subScriptVar => .access .sub .script
  | subMapVar => .access .sub .map
  | subWorldVar => .access .sub .world
  | mulScriptVar => .access .mul .script
  | mulMapVar => .access .mul .map
  | mulWorldVar => .access .mul .world
  | divScriptVar => .access .div .script
  | divMapVar => .access .div .map
  | divWorldVar => .access .div .world
  | modScriptVar => .access .mod .script
  | modMapVar => .access .mod .map
  | modWorldVar => .access .mod .world
  | incScriptVar => .access .inc .script
  | incMapVar => .access .inc .map
  | incWorldVar => .access .inc .world
  | decScriptVar => .access .dec .script
  | decMapVar => .access .dec .map
  | decWorldVar => .access .dec .world
  | goto => .branch .goto
  | ifGoto => .branch .ifGoto
  | drop => .plain .drop
  | delay => .plain .delay
  | delayDirect => .number .delayDirect
  | random => .plain .random
  | randomDirect => .numbers .randomDirect
  | thingCount => .plain .thingCount
  | thingCountDirect => .numbers .thingCountDirect
  | tagWait => .plain .tagWait
  | tagWaitDirect => .number .tagWaitDirect
  | polyWait => .plain .polyWait
  | polyWaitDirect => .number .polyWaitDirect
  | changeFloor => .plain (.changeFlat .floor)
  | changeFloorDirect => .numbers (.changeFlatDirect .floor)
  | changeCeiling => .plain (.changeFlat .ceiling)
  | changeCeilingDirect => .numbers (.changeFlatDirect .ceiling)
  | restart => .plain .restart
  | andLogical => .plain (.binary .andLogical)
  | orLogical => .plain (.binary .orLogical)
  | andBitwise => .plain (.binary .andBitwise)
  | orBitwise => .plain (.binary .orBitwise)
  | eorBitwise => .plain (.binary .eorBitwise)
  | negateLogical => .plain (.unary .negateLogical)
  | lShift => .plain (.binary .lShift)
  | rShift => .plain (.binary .rShift)
  | unaryMinus => .plain (.unary .minus)
  | ifNotGoto => .branch .ifNotGoto
  | lineSide => .plain .lineSide
  | scriptWait => .plain .scriptWait
  | scriptWaitDirect => .number .scriptWaitDirect
  | clearLineSpecial => .plain .clearLineSpecial
  | caseGoto => .caseBranch .caseGoto
  | beginPrint => .plain .beginPrint
  | endPrint => .plain .endPrint
  | printString => .plain .printString
  | printNumber => .plain .printNumber
  | printCharacter => .plain .printCharacter
  | playerCount => .plain .playerCount
  | gameType => .plain .gameType
  | gameSkill => .plain .gameSkill
  | timer => .plain .timer
  | sectorSound => .plain .sectorSound
  | ambientSound => .plain .ambientSound
  | soundSequence => .plain .soundSequence
  | setLineTexture => .plain .setLineTexture
  | setLineBlocking => .plain .setLineBlocking
  | setLineSpecial => .plain .setLineSpecial
  | thingSound => .plain .thingSound
  | endPrintBold => .plain .endPrintBold

/-- The number of operand cells after an opcode. -/
def operandCells (op : Opcode) : Nat := op.form.width

end Opcode

end MapScript
