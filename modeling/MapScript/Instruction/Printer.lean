import MapScript.Instruction.Decode
import MapScript.Text.Case

/-!
# Writing instructions

The line of a listing and the JSON form of a decoded instruction.
-/

namespace MapScript

open Text (snakeCase)

namespace VarOp

def name : VarOp → String
  | assign => "Assign"
  | push => "Push"
  | add => "Add"
  | sub => "Sub"
  | mul => "Mul"
  | div => "Div"
  | mod => "Mod"
  | inc => "Inc"
  | dec => "Dec"

end VarOp

namespace BinaryOp

def name : BinaryOp → String
  | add => "Add"
  | subtract => "Subtract"
  | multiply => "Multiply"
  | divide => "Divide"
  | modulus => "Modulus"
  | eq => "Eq"
  | ne => "Ne"
  | lt => "Lt"
  | gt => "Gt"
  | le => "Le"
  | ge => "Ge"
  | andLogical => "AndLogical"
  | orLogical => "OrLogical"
  | andBitwise => "AndBitwise"
  | orBitwise => "OrBitwise"
  | eorBitwise => "EorBitwise"
  | lShift => "LShift"
  | rShift => "RShift"

end BinaryOp

namespace UnaryOp

def name : UnaryOp → String
  | negateLogical => "NegateLogical"
  | minus => "Minus"

end UnaryOp

namespace Surface

def name : Surface → String
  | floor => "Floor"
  | ceiling => "Ceiling"

end Surface

namespace Instruction

/-- The kind of an instruction. -/
def name : Instruction → String
  | nop => "Nop"
  | terminate => "Terminate"
  | suspend => "Suspend"
  | pushNumber _ => "PushNumber"
  | lineSpecial _ _ => "LineSpecial"
  | lineSpecialDirect _ _ _ => "LineSpecialDirect"
  | binary _ => "Binary"
  | unary _ => "Unary"
  | .variable _ _ _ => "Variable"
  | goto _ => "Goto"
  | ifGoto _ => "IfGoto"
  | ifNotGoto _ => "IfNotGoto"
  | caseGoto _ _ => "CaseGoto"
  | drop => "Drop"
  | delay => "Delay"
  | delayDirect _ => "DelayDirect"
  | random => "Random"
  | randomDirect _ _ => "RandomDirect"
  | thingCount => "ThingCount"
  | thingCountDirect _ _ => "ThingCountDirect"
  | tagWait => "TagWait"
  | tagWaitDirect _ => "TagWaitDirect"
  | polyWait => "PolyWait"
  | polyWaitDirect _ => "PolyWaitDirect"
  | scriptWait => "ScriptWait"
  | scriptWaitDirect _ => "ScriptWaitDirect"
  | changeFlat _ => "ChangeFlat"
  | changeFlatDirect _ _ _ => "ChangeFlatDirect"
  | restart => "Restart"
  | lineSide => "LineSide"
  | clearLineSpecial => "ClearLineSpecial"
  | beginPrint => "BeginPrint"
  | printString => "PrintString"
  | printNumber => "PrintNumber"
  | printCharacter => "PrintCharacter"
  | endPrint => "EndPrint"
  | endPrintBold => "EndPrintBold"
  | playerCount => "PlayerCount"
  | gameType => "GameType"
  | gameSkill => "GameSkill"
  | timer => "Timer"
  | sectorSound => "SectorSound"
  | ambientSound => "AmbientSound"
  | soundSequence => "SoundSequence"
  | thingSound => "ThingSound"
  | setLineTexture => "SetLineTexture"
  | setLineBlocking => "SetLineBlocking"
  | setLineSpecial => "SetLineSpecial"
  | unknown _ => "Unknown"

/-- The instruction as a line of a listing. One without operands is its name. -/
def listing : Instruction → String
  | pushNumber value => s!"push {value.toInt}"
  | lineSpecial special argc => s!"lspec{argc} {special.toInt}"
  | lineSpecialDirect special argc args =>
    s!"lspec{argc}direct {special.toInt}"
      ++ String.join ((args.toList.take argc).map fun arg => s!" {arg.toInt}")
  | binary op => op.name
  | unary op => op.name
  | .variable op scope index => s!"{op.name} {scope.name}[{index}]"
  | goto target => s!"goto @{target}"
  | ifGoto target => s!"ifgoto @{target}"
  | ifNotGoto target => s!"ifnotgoto @{target}"
  | caseGoto value target => s!"casegoto {value.toInt} @{target}"
  | delayDirect ticks => s!"delay {ticks.toInt}"
  | randomDirect min max => s!"random {min.toInt} {max.toInt}"
  | thingCountDirect thingType tid => s!"thingcount {thingType.toInt} {tid.toInt}"
  | tagWaitDirect tag => s!"tagwait {tag.toInt}"
  | polyWaitDirect poly => s!"polywait {poly.toInt}"
  | scriptWaitDirect script => s!"scriptwait {script.toInt}"
  | changeFlat surface => s!"change {surface.name}"
  | changeFlatDirect surface tag flat =>
    s!"change {surface.name} tag {tag.toInt} str#{flat.toInt}"
  | unknown code => s!"<unknown {code.toInt}>"
  | other => other.name

/-- The operands as named members. -/
def operands : Instruction → List (String × Json)
  | pushNumber value => [("value", .int32 value)]
  | lineSpecial special argc => [("special", .int32 special), ("argc", .nat argc)]
  | lineSpecialDirect special argc args =>
    [("special", .int32 special), ("argc", .nat argc), ("args", args.toJson)]
  | binary op => [("op", .text (snakeCase op.name))]
  | unary op => [("op", .text (snakeCase op.name))]
  | .variable op scope index =>
    [("op", .text (snakeCase op.name)), ("scope", .text (snakeCase scope.name)),
      ("index", .nat index)]
  | goto target | ifGoto target | ifNotGoto target => [("target", .nat target)]
  | caseGoto value target => [("value", .int32 value), ("target", .nat target)]
  | delayDirect ticks => [("ticks", .int32 ticks)]
  | randomDirect min max => [("min", .int32 min), ("max", .int32 max)]
  | thingCountDirect thingType tid => [("thing_type", .int32 thingType), ("tid", .int32 tid)]
  | tagWaitDirect tag => [("tag", .int32 tag)]
  | polyWaitDirect poly => [("poly", .int32 poly)]
  | scriptWaitDirect script => [("script", .int32 script)]
  | changeFlat surface => [("surface", .text (snakeCase surface.name))]
  | changeFlatDirect surface tag flat =>
    [("surface", .text (snakeCase surface.name)), ("tag", .int32 tag), ("flat", .int32 flat)]
  | unknown code => [("code", .int32 code)]
  | _ => []

def toJson (i : Instruction) : Json :=
  .record (("insn", .text (snakeCase i.name)) :: i.operands)

end Instruction

namespace Decoded

def toJson (d : Decoded) : Json :=
  .record [("instruction", d.instruction.toJson), ("next", .nat d.next)]

end Decoded

end MapScript
