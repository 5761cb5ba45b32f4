import MapScript.Machine.Basic

/-!
# Snapshots

The part of a machine that a saved game keeps. The image is loaded again from the map, and a
snapshot is taken back only where it fits the image.
-/

namespace MapScript

structure Snapshot where
  map : Int32
  worldVars : WorldVars
  mapVars : MapVars
  instances : InstanceTable
  deferred : DeferredQueue
deriving DecidableEq, Repr

namespace Snapshot

def toJson (s : Snapshot) : Json :=
  .record [("map", .int32 s.map), ("world_vars", s.worldVars.toJson),
    ("map_vars", s.mapVars.toJson), ("instances", s.instances.toJson),
    ("deferred", s.deferred.toJson)]

def ofJson? (j : Json) : Option Snapshot := do
  let ms ← j.fields? ["map", "world_vars", "map_vars", "instances", "deferred"]
  return {
    map := ← Json.required? "map" Json.int32? ms
    worldVars := ← Json.required? "world_vars" VarStore.ofJson? ms
    mapVars := ← Json.required? "map_vars" VarStore.ofJson? ms
    instances := ← Json.required? "instances" InstanceTable.ofJson? ms
    deferred := ← Json.required? "deferred" DeferredQueue.ofJson? ms }

end Snapshot

/-- Why a snapshot does not fit. -/
inductive RestoreError where
  | handleReused (next last : UInt32)
  | repeatedScript (h : UInt32) (number : Int32)
  | noDefinition (h : UInt32) (definition : Nat)
  | otherScript (h : UInt32) (number : Int32) (definition : Nat) (declared : Int32)
  | notCode (h : UInt32) (pc : Nat)
  | oversizedStack (h : UInt32)
deriving DecidableEq, Repr

namespace RestoreError

def message : RestoreError → String
  | handleReused next last =>
    s!"next handle {next.toNat} would reuse live handle #{last.toNat}"
  | repeatedScript h number => s!"instance #{h.toNat} duplicates script {number.toInt}"
  | noDefinition h definition =>
    s!"instance #{h.toNat} refers to missing definition {definition}"
  | otherScript h number definition declared =>
    s!"instance #{h.toNat} is script {number.toInt} but definition {definition} is script "
      ++ toString declared.toInt
  | notCode h pc => s!"instance #{h.toNat} resumes at cell {pc} which is not code"
  | oversizedStack h => s!"instance #{h.toNat} has an oversized operand stack"

end RestoreError

namespace Machine

def snapshot (m : Machine) : Snapshot :=
  { map := m.map, worldVars := m.worldVars, mapVars := m.mapVars, instances := m.instances,
    deferred := m.deferred }

/-- Checks that an instance belongs to an image and its script comes for the first time. -/
def checkInstance (image : Image) (seen : List Int32) (h : UInt32) (i : ScriptInstance) :
    Except RestoreError Unit :=
  if seen.contains i.number then .error (.repeatedScript h i.number)
  else match image.scripts[i.definition]? with
    | none => .error (.noDefinition h i.definition)
    | some info =>
      if info.number ≠ i.number then
        .error (.otherScript h i.number i.definition info.number)
      else if ¬ image.program.isBoundary i.pc then .error (.notCode h i.pc)
      else if ¬ i.stack.fits then .error (.oversizedStack h)
      else .ok ()

/-- Checks instances in order. -/
def checkInstances (image : Image) (seen : List Int32) :
    List (UInt32 × ScriptInstance) → Except RestoreError Unit
  | [] => .ok ()
  | (h, i) :: rest => do
    checkInstance image seen h i
    checkInstances image (i.number :: seen) rest

/-- Checks that the next handle comes after every live one. -/
def checkNext (t : InstanceTable) : Except RestoreError Unit :=
  match t.handles.getLast? with
  | none => .ok ()
  | some last => if last < t.next then .ok () else .error (.handleReused t.next last)

/-- Takes back a snapshot on an image. Open scripts are not started again. -/
def restore (m : Machine) (image : Image) (s : Snapshot) :
    Except RestoreError (Machine × Journal) := do
  checkNext s.instances
  checkInstances image [] s.instances.records.entries
  let restored := { m with
    image
    map := s.map
    worldVars := s.worldVars
    mapVars := s.mapVars
    instances := s.instances
    deferred := s.deferred
    print := m.print.clear }
  return (restored, #[.restored s.map s.instances.size])

end Machine

end MapScript
