import MapScript.Proofs.Machine.Requests
import MapScript.Proofs.Machine.Transparency

/-!
# What a load leaves behind

Entering a map starts from a machine of which the map before is gone, and from there only instances
are made and waiting actions served.  So nothing of the map before can be found in the result:
`load_forgets`.
-/

namespace MapScript.Machine

variable {m : Machine}

theorem replay_manages (m : Machine) (action : DeferredAction) :
    m.Manages (m.replay action).machine := by
  have hreply : m.Manages (m.replayReply action).machine := by
    unfold replayReply
    cases action.kind with
    | execute => exact m.startHere_manages ..
    | suspend => exact m.suspendHere_manages ..
    | terminate => exact m.terminateHere_manages ..
  unfold replay
  simp only
  split
  · exact hreply
  · split
    · exact hreply.trans rfl
    · exact hreply
  · exact hreply

/-- Once the map before is left, a load makes instances and takes out waiting actions. -/
theorem enter_manages (m : Machine) (map : Int32) (image : Image) :
    (m.reset map image).Manages (m.enter map image).machine := by
  have hschedule : (m.reset map image).Manages (m.reset map image).scheduleAll.machine := by
    have hone : ∀ (m : Machine) (script : ScriptInfo × Nat),
        m.Manages (m.schedule script.2 script.1).machine := fun _ _ => rfl
    rw [scheduleAll, Report.machine_foldl_andThen]
    exact Manages.foldl hone _ _
  have hreplay : ∀ m : Machine, m.Manages m.replayAll.machine := by
    intro m
    rw [replayAll, Report.machine_foldl_andThen]
    have hout : m.Manages { m with deferred := m.deferred.without m.map } := rfl
    exact hout.trans (Manages.foldl (fun m action => m.replay_manages action) _ _)
  exact hschedule.trans (hreplay _)

theorem load_manages (m : Machine) (map : Int32) (bytes : List UInt8) :
    (m.reset map (loadedImage bytes)).Manages (m.load map bytes).report.machine := by
  rw [machine_load]
  exact m.enter_manages map (loadedImage bytes)

/-- A load sees only what is left once the map before is gone. -/
theorem load_congr {v w : Machine} (h : ∀ map image, v.reset map image = w.reset map image)
    (map : Int32) (bytes : List UInt8) : v.load map bytes = w.load map bytes := by
  have henter : ∀ image, v.enter map image = w.enter map image := by
    intro image
    rw [enter, enter, h]
  unfold load
  simp only [henter]

theorem reset_congr {v w : Machine} (hv : v.PrintLimited) (hw : w.PrintLimited)
    (hconfig : v.config = w.config) (hworld : v.worldVars = w.worldVars)
    (hdeferred : v.deferred = w.deferred) (hrng : v.rng = w.rng)
    (hnext : v.instances.next = w.instances.next) (map : Int32) (image : Image) :
    v.reset map image = w.reset map image := by
  have hclear : v.print.clear = w.print.clear := by
    rw [PrintBuffer.clear, PrintBuffer.clear, hv, hw, hconfig]
  have htable : v.instances.clear = w.instances.clear := by
    rw [InstanceTable.clear, InstanceTable.clear, hnext]
  simp only [reset]
  rw [hconfig, hworld, hdeferred, hrng, hclear, htable]

theorem loadedImage_of_refused {map : Int32} {bytes : List UInt8}
    (h : (m.load map bytes).refused.isSome = true) : loadedImage bytes = loadedImage [] := by
  unfold load at h
  unfold loadedImage
  cases hparse : Image.parse bytes with
  | ok image =>
      rw [hparse] at h
      cases h
  | error e => rfl

/-- Nothing of the map before comes through a load.  Two machines that agree on configuration, world
variables, waiting actions, generator and next handle load any bytes with the same result, the same
reports and the same machine, whatever maps they come from.  The load leaves the world variables and
the generator, no map variable keeps a value, and bytes that are refused load as none do.  A game
started anew agrees on the world variables and the waiting actions by itself. -/
theorem load_forgets (v w : Machine) (hv : v.Reached) (hw : w.Reached)
    (hconfig : v.config = w.config) (hrng : v.rng = w.rng)
    (hnext : v.instances.next = w.instances.next) (map : Int32) (bytes : List UInt8) :
    (v.worldVars = w.worldVars → v.deferred = w.deferred →
      v.load map bytes = w.load map bytes) ∧
    (let after := (v.load map bytes).report.machine
     after.worldVars = v.worldVars ∧ after.rng = v.rng ∧ after.mapVars = .zero ∧
      ((v.load map bytes).refused.isSome = true → after = (v.load map []).report.machine)) ∧
    v.newGame.load map bytes = w.newGame.load map bytes := by
  have hkept := v.load_manages map bytes
  refine ⟨fun hworld hdeferred => ?_, ⟨hkept.worldVars, hkept.rng, hkept.mapVars,
    fun hrefused => ?_⟩, ?_⟩
  · exact load_congr (reset_congr hv.printLimited hw.printLimited hconfig hworld hdeferred hrng
      hnext) map bytes
  · rw [machine_load, machine_load, loadedImage_of_refused hrefused]
  · exact load_congr (reset_congr (v := v.newGame) (w := w.newGame) hv.printLimited
      hw.printLimited hconfig rfl rfl hrng hnext) map bytes

/-- A machine in the middle of its first map, with a start waiting for the third. -/
def midway : Machine :=
  (new { openScriptDelay := 0 } 0).after
    [.load 1 waitingImage, .tick .new, .start 2 3 .zero .none]

/-- A machine that has just come to its second map, with the same start waiting. -/
def arrived : Machine :=
  (new { openScriptDelay := 0 } 0).after
    [.load 1 waitingImage, .load 2 waitingImage, .start 2 3 .zero .none]

/-- The third map is the same to both: its open script is under handle 3 and the waiting start under
handle 4.  With bytes that are no image it is empty. -/
theorem load_forgets_midway :
    midway.map ≠ arrived.map ∧ midway.instances ≠ arrived.instances ∧
    midway.load 3 waitingImage = arrived.load 3 waitingImage ∧
    (midway.load 3 waitingImage).report.machine.instances.handles = [3, 4] ∧
    (midway.load 3 [65, 67, 83, 1, 8, 0, 0, 0]).report.machine =
      (midway.load 3 []).report.machine ∧
    midway.newGame.load 3 waitingImage = arrived.newGame.load 3 waitingImage := by
  have hmidway : midway.Reached := ⟨_, _, _, rfl⟩
  have harrived : arrived.Reached := ⟨_, _, _, rfl⟩
  have hload := load_forgets midway arrived hmidway harrived (by decide +kernel)
    (by decide +kernel) (by decide +kernel) 3
  obtain ⟨hsame, _, hanew⟩ := hload waitingImage
  obtain ⟨_, ⟨_, _, _, hrefused⟩, _⟩ := hload [65, 67, 83, 1, 8, 0, 0, 0]
  exact ⟨by decide +kernel, by decide +kernel, hsame (by decide +kernel) (by decide +kernel),
    by decide +kernel, hrefused (by decide +kernel), hanew⟩

end MapScript.Machine
