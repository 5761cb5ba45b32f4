import MapScript.SpecialArgs
import MapScript.Trigger

/-!
# Actions on scripts

Requests to start, suspend or end a script, of the loaded map or of another.
-/

namespace MapScript

inductive ActionKind where
  | execute | suspend | terminate
deriving DecidableEq, Repr

namespace ActionKind

def name : ActionKind → String
  | execute => "Execute"
  | suspend => "Suspend"
  | terminate => "Terminate"

def key : ActionKind → String
  | execute => "execute"
  | suspend => "suspend"
  | terminate => "terminate"

def toJson (kind : ActionKind) : Json := .text kind.key

def ofJson? : Json → Option ActionKind :=
  Json.oneOf? .document [("execute", execute), ("suspend", suspend), ("terminate", terminate)]

end ActionKind

/-- A request raised by a running script. -/
structure ScriptRequest where
  kind : ActionKind
  script : Int32
  map : Int32
  args : SpecialArgs
  trigger : Trigger
deriving DecidableEq, Repr

/-- An action for a map that is not loaded. -/
structure DeferredAction where
  script : Int32
  map : Int32
  kind : ActionKind
  args : SpecialArgs
deriving DecidableEq, Repr

namespace DeferredAction

def toJson (a : DeferredAction) : Json :=
  .record [("script", .int32 a.script), ("map", .int32 a.map), ("kind", a.kind.toJson),
    ("args", a.args.toJson)]

def ofJson? (j : Json) : Option DeferredAction := do
  let ms ← j.fields? ["script", "map", "kind", "args"]
  return {
    script := ← Json.required? "script" Json.int32? ms
    map := ← Json.required? "map" Json.int32? ms
    kind := ← Json.required? "kind" ActionKind.ofJson? ms
    args := ← Json.required? "args" SpecialArgs.ofJson? ms }

end DeferredAction

end MapScript
