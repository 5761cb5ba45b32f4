/-!
# Opcodes

The operation codes of compiled scripts. An opcode's number is its place in the list, so the
numbering is dense and reading a number is a look-up.
-/

namespace MapScript

/-- The operations a code cell can name, in the order of their numbers. -/
inductive Opcode where
  | nop | terminate | suspend | pushNumber | lSpec1 | lSpec2 | lSpec3 | lSpec4 | lSpec5
  | lSpec1Direct | lSpec2Direct | lSpec3Direct | lSpec4Direct | lSpec5Direct | add | subtract
  | multiply | divide | modulus | eq | ne | lt | gt | le | ge | assignScriptVar | assignMapVar
  | assignWorldVar | pushScriptVar | pushMapVar | pushWorldVar | addScriptVar | addMapVar
  | addWorldVar | subScriptVar | subMapVar | subWorldVar | mulScriptVar | mulMapVar
  | mulWorldVar | divScriptVar | divMapVar | divWorldVar | modScriptVar | modMapVar
  | modWorldVar | incScriptVar | incMapVar | incWorldVar | decScriptVar | decMapVar
  | decWorldVar | goto | ifGoto | drop | delay | delayDirect | random | randomDirect
  | thingCount | thingCountDirect | tagWait | tagWaitDirect | polyWait | polyWaitDirect
  | changeFloor | changeFloorDirect | changeCeiling | changeCeilingDirect | restart
  | andLogical | orLogical | andBitwise | orBitwise | eorBitwise | negateLogical | lShift
  | rShift | unaryMinus | ifNotGoto | lineSide | scriptWait | scriptWaitDirect
  | clearLineSpecial | caseGoto | beginPrint | endPrint | printString | printNumber
  | printCharacter | playerCount | gameType | gameSkill | timer | sectorSound | ambientSound
  | soundSequence | setLineTexture | setLineBlocking | setLineSpecial | thingSound
  | endPrintBold
deriving DecidableEq, Repr

namespace Opcode

/-- Every opcode with its name, at the place of its number. -/
def table : Array (Opcode × String) := #[
  (.nop, "Nop"), (.terminate, "Terminate"), (.suspend, "Suspend"), (.pushNumber, "PushNumber"),
  (.lSpec1, "LSpec1"), (.lSpec2, "LSpec2"), (.lSpec3, "LSpec3"), (.lSpec4, "LSpec4"),
  (.lSpec5, "LSpec5"), (.lSpec1Direct, "LSpec1Direct"), (.lSpec2Direct, "LSpec2Direct"),
  (.lSpec3Direct, "LSpec3Direct"), (.lSpec4Direct, "LSpec4Direct"),
  (.lSpec5Direct, "LSpec5Direct"), (.add, "Add"), (.subtract, "Subtract"),
  (.multiply, "Multiply"), (.divide, "Divide"), (.modulus, "Modulus"), (.eq, "Eq"), (.ne, "Ne"),
  (.lt, "Lt"), (.gt, "Gt"), (.le, "Le"), (.ge, "Ge"), (.assignScriptVar, "AssignScriptVar"),
  (.assignMapVar, "AssignMapVar"), (.assignWorldVar, "AssignWorldVar"),
  (.pushScriptVar, "PushScriptVar"), (.pushMapVar, "PushMapVar"),
  (.pushWorldVar, "PushWorldVar"), (.addScriptVar, "AddScriptVar"), (.addMapVar, "AddMapVar"),
  (.addWorldVar, "AddWorldVar"), (.subScriptVar, "SubScriptVar"), (.subMapVar, "SubMapVar"),
  (.subWorldVar, "SubWorldVar"), (.mulScriptVar, "MulScriptVar"), (.mulMapVar, "MulMapVar"),
  (.mulWorldVar, "MulWorldVar"), (.divScriptVar, "DivScriptVar"), (.divMapVar, "DivMapVar"),
  (.divWorldVar, "DivWorldVar"), (.modScriptVar, "ModScriptVar"), (.modMapVar, "ModMapVar"),
  (.modWorldVar, "ModWorldVar"), (.incScriptVar, "IncScriptVar"), (.incMapVar, "IncMapVar"),
  (.incWorldVar, "IncWorldVar"), (.decScriptVar, "DecScriptVar"), (.decMapVar, "DecMapVar"),
  (.decWorldVar, "DecWorldVar"), (.goto, "Goto"), (.ifGoto, "IfGoto"), (.drop, "Drop"),
  (.delay, "Delay"), (.delayDirect, "DelayDirect"), (.random, "Random"),
  (.randomDirect, "RandomDirect"), (.thingCount, "ThingCount"),
  (.thingCountDirect, "ThingCountDirect"), (.tagWait, "TagWait"),
  (.tagWaitDirect, "TagWaitDirect"), (.polyWait, "PolyWait"),
  (.polyWaitDirect, "PolyWaitDirect"), (.changeFloor, "ChangeFloor"),
  (.changeFloorDirect, "ChangeFloorDirect"), (.changeCeiling, "ChangeCeiling"),
  (.changeCeilingDirect, "ChangeCeilingDirect"), (.restart, "Restart"),
  (.andLogical, "AndLogical"), (.orLogical, "OrLogical"), (.andBitwise, "AndBitwise"),
  (.orBitwise, "OrBitwise"), (.eorBitwise, "EorBitwise"), (.negateLogical, "NegateLogical"),
  (.lShift, "LShift"), (.rShift, "RShift"), (.unaryMinus, "UnaryMinus"),
  (.ifNotGoto, "IfNotGoto"), (.lineSide, "LineSide"), (.scriptWait, "ScriptWait"),
  (.scriptWaitDirect, "ScriptWaitDirect"), (.clearLineSpecial, "ClearLineSpecial"),
  (.caseGoto, "CaseGoto"), (.beginPrint, "BeginPrint"), (.endPrint, "EndPrint"),
  (.printString, "PrintString"), (.printNumber, "PrintNumber"),
  (.printCharacter, "PrintCharacter"), (.playerCount, "PlayerCount"), (.gameType, "GameType"),
  (.gameSkill, "GameSkill"), (.timer, "Timer"), (.sectorSound, "SectorSound"),
  (.ambientSound, "AmbientSound"), (.soundSequence, "SoundSequence"),
  (.setLineTexture, "SetLineTexture"), (.setLineBlocking, "SetLineBlocking"),
  (.setLineSpecial, "SetLineSpecial"), (.thingSound, "ThingSound"),
  (.endPrintBold, "EndPrintBold")]

/-- The number of an opcode. -/
def toNat (op : Opcode) : Nat := op.ctorIdx

/-- The cell that names an opcode. -/
def code (op : Opcode) : Int32 := Int32.ofNat op.toNat

theorem toNat_lt (op : Opcode) : op.toNat < table.size := by
  cases op <;> decide

/-- The name of an opcode. -/
def name (op : Opcode) : String :=
  have := op.toNat_lt
  table[op.toNat].2

/-- The opcode with the given number. -/
def ofNat? (n : Nat) : Option Opcode := table[n]?.map (·.1)

/-- The opcode a cell names. -/
def ofCode? (cell : Int32) : Option Opcode :=
  if cell < 0 then none else ofNat? cell.toInt.toNat

@[simp] theorem ofNat?_toNat (op : Opcode) : ofNat? op.toNat = some op := by
  cases op <;> rfl

@[simp] theorem ofCode?_code (op : Opcode) : ofCode? op.code = some op := by
  cases op <;> rfl

end Opcode

end MapScript
