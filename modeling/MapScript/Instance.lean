import MapScript.Image.Basic
import MapScript.OperandStack
import MapScript.Trigger
import MapScript.VarStore

/-!
# Script instances

One execution of a script: where it stands, its operands and variables, and whether it may run.
-/

namespace MapScript

/-- What an instance waits for. -/
inductive Awaited where
  /-- The sectors with this tag to come to rest. -/
  | tag (tag : Int32)
  /-- This polyobject to come to rest. -/
  | poly (poly : Int32)
  /-- The script with this number to end. -/
  | script (number : Int32)
deriving DecidableEq, Repr

/-- The run state of a live instance. -/
inductive ScriptState where
  | running
  | suspended
  | waiting (on : Awaited)
  /-- Ends at its next turn. -/
  | terminating
deriving DecidableEq, Repr

namespace ScriptState

def toJson : ScriptState → Json
  | running => .record [("state", .text "running")]
  | suspended => .record [("state", .text "suspended")]
  | waiting (.tag n) => .record [("state", .text "waiting_on_tag"), ("on", .int32 n)]
  | waiting (.poly n) => .record [("state", .text "waiting_on_poly"), ("on", .int32 n)]
  | waiting (.script n) => .record [("state", .text "waiting_on_script"), ("on", .int32 n)]
  | terminating => .record [("state", .text "terminating")]

/-- The names of the states. -/
def names : List String :=
  ["running", "suspended", "waiting_on_tag", "waiting_on_poly", "waiting_on_script", "terminating"]

/-- A state without content allows its content to be left out or `null`. -/
def ofJson? (j : Json) : Option ScriptState := do
  match ← j.adjacent? .document names "state" "on" with
  | ("running", none) | ("running", some .null) => return running
  | ("suspended", none) | ("suspended", some .null) => return suspended
  | ("terminating", none) | ("terminating", some .null) => return terminating
  | ("waiting_on_tag", some v) => return waiting (.tag (← v.int32?))
  | ("waiting_on_poly", some v) => return waiting (.poly (← v.int32?))
  | ("waiting_on_script", some v) => return waiting (.script (← v.int32?))
  | _ => none

end ScriptState

/-- The state of a script number as a map sees it; a script without an instance is stopped. -/
inductive ScriptStatus where
  | stopped | running | suspended | waiting | terminating
deriving DecidableEq, Repr

namespace ScriptStatus

def ofState? : Option ScriptState → ScriptStatus
  | none => stopped
  | some .running => running
  | some .suspended => suspended
  | some (.waiting _) => waiting
  | some .terminating => terminating

def name : ScriptStatus → String
  | stopped => "stopped"
  | running => "running"
  | suspended => "suspended"
  | waiting => "waiting"
  | terminating => "terminating"

def toJson (s : ScriptStatus) : Json := .text s.name

def ofJson? : Json → Option ScriptStatus :=
  Json.oneOf? .document [("stopped", stopped), ("running", running), ("suspended", suspended),
    ("waiting", waiting), ("terminating", terminating)]

end ScriptStatus

structure ScriptInstance where
  number : Int32
  /-- The place of the script's declaration in the image. -/
  definition : Nat
  /-- The cell of the next instruction. -/
  pc : Nat
  stack : OperandStack
  locals : ScriptVars
  state : ScriptState
  /-- Turns to sit out before the next slice. -/
  delay : UInt32
  trigger : Trigger
deriving DecidableEq, Repr

namespace ScriptInstance

/-- A fresh instance of a declared script. Its first variables are the arguments it declares. -/
def new (definition : Nat) (info : ScriptInfo) (args : SpecialArgs) (trigger : Trigger) :
    ScriptInstance where
  number := info.number
  definition := definition
  pc := info.entry
  stack := .empty
  locals := .ofList (args.toList.take info.argCount)
  state := .running
  delay := 0
  trigger := trigger

def toJson (i : ScriptInstance) : Json :=
  .record [("number", .int32 i.number), ("definition", .nat i.definition), ("pc", .nat i.pc),
    ("stack", i.stack.toJson), ("locals", i.locals.toJson), ("state", i.state.toJson),
    ("delay", .uint32 i.delay), ("trigger", i.trigger.toJson)]

def ofJson? (j : Json) : Option ScriptInstance := do
  let ms ← j.fields?
    ["number", "definition", "pc", "stack", "locals", "state", "delay", "trigger"]
  return {
    number := ← Json.required? "number" Json.int32? ms
    definition := ← Json.required? "definition" Json.size? ms
    pc := ← Json.required? "pc" Json.size? ms
    stack := ← Json.required? "stack" OperandStack.ofJson? ms
    locals := ← Json.required? "locals" VarStore.ofJson? ms
    state := ← Json.required? "state" ScriptState.ofJson? ms
    delay := ← Json.required? "delay" Json.uint32? ms
    trigger := ← Json.required? "trigger" Trigger.ofJson? ms }

end ScriptInstance

end MapScript
