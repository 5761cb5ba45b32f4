import MapScript.Machine.Basic

/-!
# Requests

Starting, suspending and ending scripts. A request for another map waits until that map is loaded.
-/

namespace MapScript

/-- The answer to a request, with the machine after it and what was reported. -/
structure Reply where
  answer : Except RequestError Outcome
  machine : Machine
  journal : Journal := #[]

namespace Machine

/-- Starts a script of the loaded map, or resumes it when it is suspended. -/
def startHere (m : Machine) (number : Int32) (args : SpecialArgs) (trigger : Trigger) : Reply :=
  match m.image.findScript? number with
  | none => ⟨.error (.unknownScript number), m, #[.startOfUnknown m.map number]⟩
  | some (definition, info) =>
    match m.instances.find? number with
    | none =>
      let i := ScriptInstance.new definition info args trigger
      ⟨.ok .started, { m with instances := m.instances.insert i }, #[]⟩
    | some (h, i) =>
      if i.state = .suspended then
        ⟨.ok .resumed, { m with instances := m.instances.setState h .running }, #[]⟩
      else ⟨.error (.alreadyRunning number), m, #[]⟩

/-- Suspends a script of the loaded map. -/
def suspendHere (m : Machine) (number : Int32) : Reply :=
  match m.instances.find? number with
  | none => ⟨.error (.notRunning number), m, #[]⟩
  | some (h, i) =>
    match i.state with
    | .suspended => ⟨.error (.alreadySuspended number), m, #[]⟩
    | .terminating => ⟨.error (.alreadyTerminating number), m, #[]⟩
    | _ => ⟨.ok .suspended, { m with instances := m.instances.setState h .suspended }, #[]⟩

/-- Marks a script of the loaded map to end at its next turn. -/
def terminateHere (m : Machine) (number : Int32) : Reply :=
  match m.instances.find? number with
  | none => ⟨.error (.notRunning number), m, #[]⟩
  | some (h, i) =>
    if i.state = .terminating then ⟨.error (.alreadyTerminating number), m, #[]⟩
    else ⟨.ok .terminating, { m with instances := m.instances.setState h .terminating }, #[]⟩

/-- Whether a request names a map other than the loaded one; zero names the loaded one. -/
def isElsewhere (m : Machine) (map : Int32) : Bool := map ≠ 0 && map ≠ m.map

/-- Lets an action wait for its map. -/
def defer (m : Machine) (action : DeferredAction) : Reply where
  answer := .ok (.deferred (!m.deferred.refuses action))
  machine := { m with deferred := m.deferred.enqueue action }
  journal := m.deferred.enqueueNotices action

/-- Starts or resumes a script of a map. -/
def start (m : Machine) (number map : Int32) (args : SpecialArgs) (trigger : Trigger) : Reply :=
  if m.isElsewhere map then m.defer ⟨number, map, .execute, args⟩
  else m.startHere number args trigger

/-- Suspends a script of a map. -/
def suspend (m : Machine) (number map : Int32) : Reply :=
  if m.isElsewhere map then m.defer ⟨number, map, .suspend, .zero⟩
  else m.suspendHere number

/-- Marks a script of a map to end. -/
def terminate (m : Machine) (number map : Int32) : Reply :=
  if m.isElsewhere map then m.defer ⟨number, map, .terminate, .zero⟩
  else m.terminateHere number

/-- Serves a request raised by a script. -/
def serve (m : Machine) (r : ScriptRequest) : Reply :=
  match r.kind with
  | .execute => m.start r.script r.map r.args r.trigger
  | .suspend => m.suspend r.script r.map
  | .terminate => m.terminate r.script r.map

end Machine

end MapScript
