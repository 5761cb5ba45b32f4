import MapScript.Fault
import MapScript.Action

/-!
# Answers and notices

What a request for a script can be answered, and what a machine reports while it works.
-/

namespace MapScript

/-- What a request did. -/
inductive Outcome where
  | started
  /-- A suspended instance runs again. -/
  | resumed
  | suspended
  | terminating
  /-- The request is for another map; `queued` is false when the same start already waits. -/
  | deferred (queued : Bool)
deriving DecidableEq, Repr

namespace Outcome

def text : Outcome → String
  | started => "Started"
  | resumed => "Resumed"
  | suspended => "Suspended"
  | terminating => "Terminating"
  | deferred queued => s!"Deferred \x7b queued: {queued} \x7d"

end Outcome

/-- Why a request did nothing. -/
inductive RequestError where
  | unknownScript (number : Int32)
  | alreadyRunning (number : Int32)
  | notRunning (number : Int32)
  | alreadySuspended (number : Int32)
  | alreadyTerminating (number : Int32)
deriving DecidableEq, Repr

namespace RequestError

def message : RequestError → String
  | unknownScript number => s!"script {number.toInt} is not defined on this map"
  | alreadyRunning number => s!"script {number.toInt} is already running"
  | notRunning number => s!"script {number.toInt} is not running"
  | alreadySuspended number => s!"script {number.toInt} is already suspended"
  | alreadyTerminating number => s!"script {number.toInt} is already terminating"

end RequestError

inductive Level where
  | error | warn | info | debug | trace
deriving DecidableEq, Repr

namespace Level

def name : Level → String
  | error => "ERROR"
  | warn => "WARN"
  | info => "INFO"
  | debug => "DEBUG"
  | trace => "TRACE"

end Level

/-- What a machine reports. -/
inductive Notice where
  | printBufferFull (limit : Nat)
  | imageRejected (map : Int32)
  | openScriptScheduled (map number : Int32)
  | mapLoaded (map : Int32) (scripts strings opened : Nat)
  | deferredFailed (kind : ActionKind) (map : Int32) (cause : RequestError)
  | startOfUnknown (map number : Int32)
  | faulted (map number : Int32) (pc : Nat) (fault : Fault)
  | finished (map number : Int32)
  | requestServed (script : Int32) (kind : ActionKind) (outcome : Outcome)
  | requestIgnored (kind : ActionKind) (cause : RequestError)
  | alreadyQueued (script map : Int32)
  | restored (map : Int32) (instances : Nat)
deriving DecidableEq, Repr

namespace Notice

def level : Notice → Level
  | faulted .. => .error
  | imageRejected .. | startOfUnknown .. => .warn
  | mapLoaded .. | restored .. => .info
  | printBufferFull .. | openScriptScheduled .. | deferredFailed .. | finished ..
  | requestIgnored .. | alreadyQueued .. => .debug
  | requestServed .. => .trace

def message : Notice → String
  | printBufferFull limit => s!"print buffer full at {limit} bytes"
  | imageRejected map => s!"map {map.toInt}: script image rejected; scripting disabled"
  | openScriptScheduled map number => s!"map {map.toInt}: open script {number.toInt} scheduled"
  | mapLoaded map scripts strings opened =>
    s!"map {map.toInt}: {scripts} scripts, {strings} strings, {opened} open"
  | deferredFailed kind map cause => s!"deferred {kind.name} for map {map.toInt}: {cause.message}"
  | startOfUnknown map number => s!"map {map.toInt}: start of unknown script {number.toInt}"
  | faulted map number pc fault =>
    s!"map {map.toInt}: script {number.toInt} faulted at cell {pc}: {fault.message}"
  | finished map number => s!"map {map.toInt}: script {number.toInt} finished"
  | requestServed script kind outcome => s!"script {script.toInt} {kind.name}: {outcome.text}"
  | requestIgnored kind cause => s!"{kind.name} request ignored: {cause.message}"
  | alreadyQueued script map => s!"script {script.toInt} already queued for map {map.toInt}"
  | restored map instances => s!"map {map.toInt}: restored {instances} script instances"

/-- The notice as a line of a log. -/
def line (n : Notice) : String := n.level.name ++ " " ++ n.message

end Notice

/-- Notices in the order they were made. -/
abbrev Journal := Array Notice

end MapScript
