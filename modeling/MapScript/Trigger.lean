import MapScript.Json.Reading

/-!
# Triggers

Who or what started a script.
-/

namespace MapScript

/-- The side of a line from which it was activated. -/
inductive LineSide where
  | front | back
deriving DecidableEq, Repr

namespace LineSide

def toInt32 : LineSide → Int32
  | front => 0
  | back => 1

def name : LineSide → String
  | front => "front"
  | back => "back"

def ofJson? : Json → Option LineSide :=
  Json.oneOf? .document [("front", front), ("back", back)]

end LineSide

/-- The activator and the line of a start. Open scripts have neither. -/
structure Trigger where
  activator : Option UInt32
  line : Option UInt32
  side : LineSide
deriving DecidableEq, Repr

namespace Trigger

def none : Trigger := ⟨.none, .none, .front⟩

/-- Started by an actor alone. -/
def actor (activator : UInt32) : Trigger := ⟨some activator, .none, .front⟩

/-- Started from a side of a line. -/
def ofLine (activator : Option UInt32) (line : UInt32) (side : LineSide) : Trigger :=
  ⟨activator, some line, side⟩

def toJson (t : Trigger) : Json :=
  .record [("activator", .nullable .uint32 t.activator), ("line", .nullable .uint32 t.line),
    ("side", .text t.side.name)]

def ofJson? (j : Json) : Option Trigger := do
  let ms ← j.fields? ["activator", "line", "side"]
  return {
    activator := ← Json.optional? "activator" Json.uint32? ms
    line := ← Json.optional? "line" Json.uint32? ms
    side := ← Json.required? "side" LineSide.ofJson? ms }

end Trigger

end MapScript
