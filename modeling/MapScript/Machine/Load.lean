import MapScript.Image.Parser
import MapScript.Machine.Request

/-!
# Loading a map

Entering a map drops the instances and variables of the one before, schedules the open scripts and
then serves the actions that were waiting for the map.
-/

namespace MapScript

/-- A machine and what it reported on the way. -/
structure Report where
  machine : Machine
  journal : Journal := #[]

namespace Report

/-- Goes on with another part of the work. -/
def andThen (r : Report) (f : Machine → Report) : Report :=
  let r' := f r.machine
  ⟨r'.machine, r.journal ++ r'.journal⟩

end Report

namespace Machine

/-- Schedules an open script. -/
def schedule (m : Machine) (definition : Nat) (info : ScriptInfo) : Report :=
  let i := { ScriptInstance.new definition info .zero .none with
    delay := m.config.openScriptDelay }
  { machine := { m with instances := m.instances.insert i }
    journal := #[.openScriptScheduled m.map info.number] }

/-- The open scripts of an image with their places. -/
def openScripts (image : Image) : List (ScriptInfo × Nat) :=
  image.scripts.zipIdx.filter (·.1.isOpen)

/-- Does what an action that was waiting for this map asks. -/
def replayReply (m : Machine) (action : DeferredAction) : Reply :=
  match action.kind with
  | .execute => m.startHere action.script action.args .none
  | .suspend => m.suspendHere action.script
  | .terminate => m.terminateHere action.script

/-- Serves an action that was waiting for this map. A start it makes is delayed. -/
def replay (m : Machine) (action : DeferredAction) : Report :=
  let reply := m.replayReply action
  match reply.answer with
  | .error cause =>
    ⟨reply.machine, reply.journal.push (.deferredFailed action.kind action.map cause)⟩
  | .ok .started =>
    let m := reply.machine
    match m.instances.findHandle? action.script with
    | some h =>
      let instances := m.instances.modify h fun i =>
        { i with delay := m.config.deferredStartDelay }
      ⟨{ m with instances }, reply.journal⟩
    | none => ⟨m, reply.journal⟩
  | .ok _ => ⟨reply.machine, reply.journal⟩

/-- Leaves the map before and makes the image the loaded one. -/
def reset (m : Machine) (map : Int32) (image : Image) : Machine :=
  { m with
    image
    map
    instances := m.instances.clear
    mapVars := .zero
    print := m.print.clear }

/-- Reports what has been loaded. -/
def announce (m : Machine) : Report :=
  ⟨m, #[.mapLoaded m.map m.image.scripts.length m.image.strings.size m.instances.size]⟩

/-- Takes out the actions that wait for the loaded map and serves them in order. -/
def replayAll (m : Machine) : Report :=
  (m.deferred.forMap m.map).foldl (fun r action => r.andThen (replay · action))
    ⟨{ m with deferred := m.deferred.without m.map }, #[]⟩

/-- Schedules the open scripts of the loaded image in order. -/
def scheduleAll (m : Machine) : Report :=
  (openScripts m.image).foldl (fun r script => r.andThen (schedule · script.2 script.1)) ⟨m, #[]⟩

/-- Enters a map with its image. -/
def enter (m : Machine) (map : Int32) (image : Image) : Report :=
  ((m.reset map image).scheduleAll.andThen announce).andThen replayAll

/-- A map load: the machine after it, what it reported and why the image was refused. -/
structure Load where
  report : Report
  refused : Option ImageError

/-- Enters a map with the image in the given bytes. A refused image still enters the map, without
scripts. -/
def load (m : Machine) (map : Int32) (bytes : List UInt8) : Load :=
  match Image.parse bytes with
  | .ok image => ⟨m.enter map image, none⟩
  | .error e =>
    let r := m.enter map .empty
    ⟨{ r with journal := #[.imageRejected map] ++ r.journal }, some e⟩

/-- The causes of a refused load, outermost first. -/
def loadCauses (map : Int32) (e : ImageError) : List String :=
  s!"loading scripts for map {map.toInt}" :: e.causes

end Machine

end MapScript
