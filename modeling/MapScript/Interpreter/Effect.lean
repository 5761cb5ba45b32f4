import MapScript.Host
import MapScript.Instance
import MapScript.Interpreter.Arithmetic
import MapScript.PrintBuffer
import MapScript.Random
import MapScript.Request

/-!
# Effects

An instruction first takes its operands and says what is to be done, and then it is done. Only
taking operands and pushing a result can fault, so that a fault leaves everything but the operands
alone.
-/

namespace MapScript

/-- What an instruction can reach besides its own instance. -/
structure Context where
  world : WorldVars
  map : MapVars
  print : PrintBuffer
  rng : Generator
  host : Host
  /-- Requests raised so far. -/
  requests : Array ScriptRequest := #[]
  /-- Notices made so far. -/
  journal : Journal := #[]
deriving DecidableEq, Repr

namespace Context

/-- The value of a variable. -/
def load (c : Context) (locals : ScriptVars) (scope : VarScope) (index : Nat) : Int32 :=
  match scope with
  | .script => locals.get index
  | .map => c.map.get index
  | .world => c.world.get index

/-- Adds text to the message being made. -/
def appendPrint (c : Context) (text : String) : Context :=
  let (print, notices) := c.print.append text
  { c with print, journal := c.journal ++ notices }

end Context

/-- What is to be done once the operands are taken. -/
inductive Effect where
  | nothing
  | push (value : Int32)
  /-- Push a random number between two bounds. -/
  | draw (min max : Int32)
  | store (scope : VarScope) (index : Nat) (value : Int32)
  | jump (target : Nat)
  | terminate
  /-- Give up the turn and sit out some more. -/
  | sleep (ticks : UInt32)
  /-- Give up the turn in another state. -/
  | await (state : ScriptState)
  | emit (event : HostEvent)
  | request (request : ScriptRequest)
  | clearPrint
  | print (text : String)
deriving DecidableEq, Repr

namespace Effect

/-- A delay. One that is negative is none. -/
def delay (ticks : Int32) : Effect := .sleep (if ticks < 0 then 0 else ticks.toUInt32)

def tagWait (tag : Int32) : Effect := .await (.waiting (.tag tag))

def polyWait (poly : Int32) : Effect := .await (.waiting (.poly poly))

def scriptWait (number : Int32) : Effect := .await (.waiting (.script number))

/-- A line special. Those that act on scripts are requests, with the script, the map and three
arguments; all others go to the host. -/
def special (code : Int32) (args : SpecialArgs) (trigger : Trigger) : Effect :=
  let ask := fun kind => Effect.request
    { kind, script := args[0], map := args[1],
      args := #v[args[2], args[3], args[4], 0, 0], trigger }
  if code = 80 then ask .execute
  else if code = 81 then ask .suspend
  else if code = 82 then ask .terminate
  else .emit (.special code args trigger.activator trigger.line)

end Effect

/-- Takes an index from the stack and looks it up in the string table. -/
def Operands.popString (image : Image) : Operands String := do
  let index ← pop
  match image.string? index with
  | some text => return text
  | none => throw (.badString index)

namespace ScriptInstance

/-- The sector a script's line sounds from. -/
def soundOrigin (i : ScriptInstance) : SoundOrigin :=
  match i.trigger.line with
  | some line => .lineSector line
  | none => .ambient

end ScriptInstance

namespace Instruction

open Operands

/-- Takes the operands of a variable instruction. -/
def access (op : VarOp) (scope : VarScope) (index : Nat) (current : Int32) : Operands Effect :=
  match op with
  | .push => return .push current
  | .assign => return .store scope index (← pop)
  | .inc => return .store scope index (current + 1)
  | .dec => return .store scope index (current - 1)
  | .add => compute .add
  | .sub => compute .subtract
  | .mul => compute .multiply
  | .div => compute .divide
  | .mod => compute .modulus
where
  compute (operator : BinaryOp) : Operands Effect := do
    return .store scope index (← orFault (operator.eval current (← pop)))

/-- Takes the operands of an instruction and says what it does. -/
def effect (image : Image) (i : ScriptInstance) (c : Context) : Instruction → Operands Effect
  | nop => return .nothing
  | terminate => return .terminate
  | suspend => return .await .suspended
  | pushNumber value => return .push value
  | lineSpecial code argc => return .special code (← popArgs argc) i.trigger
  | lineSpecialDirect code _ args => return .special code args i.trigger
  | binary op => do
    let right ← pop
    let left ← pop
    return .push (← orFault (op.eval left right))
  | unary op => return .push (op.eval (← pop))
  | .variable op scope index => access op scope index (c.load i.locals scope index)
  | goto target => return .jump target
  | ifGoto target => return if (← pop) ≠ 0 then .jump target else .nothing
  | ifNotGoto target => return if (← pop) = 0 then .jump target else .nothing
  | caseGoto value target => do
    if (← top) = value then
      let _ ← pop
      return .jump target
    else return .nothing
  | drop => do
    let _ ← pop
    return .nothing
  | delay => return .delay (← pop)
  | delayDirect ticks => return .delay ticks
  | random => do
    let max ← pop
    let min ← pop
    return .draw min max
  | randomDirect min max => return .draw min max
  | thingCount => do
    let tid ← pop
    let thingType ← pop
    return .push (c.host.thingCount thingType tid)
  | thingCountDirect thingType tid => return .push (c.host.thingCount thingType tid)
  | tagWait => return .tagWait (← pop)
  | tagWaitDirect tag => return .tagWait tag
  | polyWait => return .polyWait (← pop)
  | polyWaitDirect poly => return .polyWait poly
  | scriptWait => return .scriptWait (← pop)
  | scriptWaitDirect script => return .scriptWait script
  | changeFlat surface => do
    let flat ← popString image
    let tag ← pop
    return .emit (.changeFlat tag surface flat)
  | changeFlatDirect surface tag flat =>
    match image.string? flat with
    | some text => return .emit (.changeFlat tag surface text)
    | none => throw (.badString flat)
  | restart =>
    match image.scripts[i.definition]? with
    | some info => return .jump info.entry
    | none => throw (.badInstructionPointer i.pc)
  | lineSide => return .push i.trigger.side.toInt32
  | clearLineSpecial =>
    match i.trigger.line with
    | some line => return .emit (.clearLineSpecial line)
    | none => return .nothing
  | beginPrint => return .clearPrint
  | printString => return .print (← popString image)
  | printNumber => return .print (toString (← pop).toInt)
  | printCharacter => return .print (String.singleton (Char.ofNat ((← pop).toUInt32.toNat % 256)))
  | endPrint => return .emit (.print c.print.text i.trigger.activator .normal)
  | endPrintBold => return .emit (.print c.print.text none .bold)
  | playerCount => return .push c.host.players
  | gameType => return .push c.host.gameType.toInt32
  | gameSkill => return .push c.host.skill
  | timer => return .push c.host.levelTime
  | sectorSound => do
    let volume ← pop
    let sound ← popString image
    return .emit (.sound sound volume i.soundOrigin)
  | ambientSound => do
    let volume ← pop
    let sound ← popString image
    return .emit (.sound sound volume .ambient)
  | soundSequence => return .emit (.soundSequence (← popString image) i.soundOrigin)
  | thingSound => do
    let volume ← pop
    let sound ← popString image
    let tid ← pop
    return .emit (.sound sound volume (.things tid))
  | setLineTexture => do
    let texture ← popString image
    let position ← pop
    let side ← pop
    let lineTag ← pop
    return .emit (.lineTexture lineTag side position texture)
  | setLineBlocking => do
    let blocking ← pop
    let lineTag ← pop
    return .emit (.lineBlocking lineTag (blocking ≠ 0))
  | setLineSpecial => do
    let args ← popArgs specialArgCount
    let code ← pop
    let lineTag ← pop
    return .emit (.lineSpecial lineTag code args)
  | unknown code => throw (.unknownOpcode code)

end Instruction

end MapScript
