import MapScript.Proofs.Interpreter.Hosts

/-!
# No slice asks what is busy

Whether a sector or a polyobject still moves matters to the turns of a tick, not to instructions: a
slice on a host where something has come to rest does the same as on the host where it moves.
-/

namespace MapScript

namespace Host

/-- The host on which a thing that is awaited has come to rest. -/
def settle (h : Host) : Awaited → Host
  | .tag tag => h.setTagBusy tag false
  | .poly poly => h.setPolyBusy poly false
  | .script _ => h

theorem contains_mark_false (set : List Int32) (x y : Int32) :
    (mark set x false).contains y = (set.contains y && y ≠ x) := by
  rw [mark, Bool.eq_iff_iff]
  simp

theorem tagBusy_settle (h : Host) (awaited : Awaited) (tag : Int32) :
    (h.settle awaited).tagBusy tag = (h.tagBusy tag && awaited ≠ .tag tag) := by
  cases awaited with
  | tag other =>
      rw [settle, setTagBusy, tagBusy, contains_mark_false]
      simp [tagBusy, eq_comm]
  | _ => simp [settle, setPolyBusy, tagBusy]

theorem polyBusy_settle (h : Host) (awaited : Awaited) (poly : Int32) :
    (h.settle awaited).polyBusy poly = (h.polyBusy poly && awaited ≠ .poly poly) := by
  cases awaited with
  | poly other =>
      rw [settle, setPolyBusy, polyBusy, contains_mark_false]
      simp [polyBusy, eq_comm]
  | _ => simp [settle, setTagBusy, polyBusy]

theorem settle_unnoticed (awaited : Awaited) : Unnoticed (·.settle awaited) := by
  cases awaited <;> exact ⟨fun _ _ => rfl, fun _ => rfl, fun _ => rfl, fun _ => rfl, fun _ => rfl,
    fun _ => rfl⟩

end Host

def Context.settle (c : Context) (awaited : Awaited) : Context :=
  { c with host := c.host.settle awaited }

def Stepped.settle (r : Stepped) (awaited : Awaited) : Stepped :=
  { r with context := r.context.settle awaited }

theorem runSlice_settle (awaited : Awaited) (image : Image) (limit : UInt32) (i : ScriptInstance)
    (c : Context) :
    runSlice image limit i (c.settle awaited) = (runSlice image limit i c).settle awaited :=
  runSlice_onHost (Host.settle_unnoticed awaited) image limit i c

end MapScript
