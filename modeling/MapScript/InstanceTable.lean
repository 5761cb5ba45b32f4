import MapScript.HandleMap
import MapScript.Instance
import MapScript.Text.Decimal

/-!
# Instance tables

The live instances under handles that count up, so that handle order is creation order and the
order of turns in a tick.
-/

namespace MapScript

structure InstanceTable where
  /-- The handle of the next instance. -/
  next : UInt32
  records : HandleMap ScriptInstance
deriving DecidableEq, Repr

namespace InstanceTable

/-- An empty table; the first handle is one. -/
def empty : InstanceTable := ⟨1, .empty⟩

def isEmpty (t : InstanceTable) : Bool := t.records.isEmpty

def size (t : InstanceTable) : Nat := t.records.size

def handles (t : InstanceTable) : List UInt32 := t.records.handles

def get? (t : InstanceTable) (h : UInt32) : Option ScriptInstance := t.records.get? h

/-- The table with one more instance under the next handle. -/
def insert (t : InstanceTable) (i : ScriptInstance) : InstanceTable :=
  ⟨t.next + 1, t.records.insert t.next i⟩

/-- Changes the instance under a handle. -/
def modify (t : InstanceTable) (h : UInt32) (f : ScriptInstance → ScriptInstance) : InstanceTable :=
  { t with records := t.records.modify h f }

/-- Puts the instance under a handle into a state. -/
def setState (t : InstanceTable) (h : UInt32) (state : ScriptState) : InstanceTable :=
  t.modify h fun i => { i with state }

def remove (t : InstanceTable) (h : UInt32) : InstanceTable :=
  { t with records := t.records.erase h }

/-- Drops every instance. Handles go on counting. -/
def clear (t : InstanceTable) : InstanceTable := { t with records := .empty }

/-- The oldest instance of a script and its handle. -/
def find? (t : InstanceTable) (number : Int32) : Option (UInt32 × ScriptInstance) :=
  t.records.entries.find? (·.2.number = number)

def findHandle? (t : InstanceTable) (number : Int32) : Option UInt32 := (t.find? number).map (·.1)

def contains (t : InstanceTable) (number : Int32) : Bool := (t.find? number).isSome

/-- The state of the oldest instance of a script. -/
def stateOf? (t : InstanceTable) (number : Int32) : Option ScriptState :=
  (t.find? number).map (·.2.state)

def statusOf (t : InstanceTable) (number : Int32) : ScriptStatus :=
  .ofState? (t.stateOf? number)

/-- Sets running every instance that waits for the given thing. -/
def wake (t : InstanceTable) (awaited : Awaited) : InstanceTable :=
  { t with records := t.records.mapValues fun _ i =>
      if i.state = .waiting awaited then { i with state := .running } else i }

def toJson (t : InstanceTable) : Json :=
  .record [("next_handle", .uint32 t.next),
    ("records", .record (t.records.entries.map fun (h, i) => (toString h.toNat, i.toJson)))]

/-- A handle as the name of a record: digits without a leading zero, written as they are. -/
def handle? (name : Json.Literal) : Option UInt32 := do
  let text ← name.text
  if !name.plain then none
  else match text.toList with
    | [] => none
    | '0' :: _ :: _ => none
    | '+' :: _ => none
    | cs => (Text.Decimal.readUInt32 cs).toOption

/-- The records of a table. Of two with one handle the later stays. -/
def records? : Json → Option (HandleMap ScriptInstance)
  | .obj ms => ms.foldlM (fun m (name, v) => do
      return m.insert (← handle? name) (← ScriptInstance.ofJson? v)) .empty
  | _ => none

def ofJson? (j : Json) : Option InstanceTable := do
  let ms ← j.fields? ["next_handle", "records"]
  return {
    next := ← Json.required? "next_handle" Json.uint32? ms
    records := ← Json.required? "records" records? ms }

end InstanceTable

end MapScript
