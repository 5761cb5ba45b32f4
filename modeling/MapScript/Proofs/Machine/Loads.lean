import MapScript.Machine.Load
import MapScript.Proofs.Machine.Advances

/-!
# Entering a map

Once the map before is left, entering a map advances the machine: the open
scripts and then the waiting starts take handles one after the other.
-/

namespace MapScript

/-- What is done in order to a machine, its reports left out. -/
theorem Report.machine_foldl_andThen {α : Type} (f : Machine → α → Report) (xs : List α)
    (r : Report) :
    (xs.foldl (fun r x => r.andThen (f · x)) r).machine =
      xs.foldl (fun m x => (f m x).machine) r.machine := by
  induction xs generalizing r with
  | nil => rfl
  | cons x xs ih =>
      rw [List.foldl_cons, List.foldl_cons, ih]
      rfl

namespace Machine

/-! ## Open scripts -/

theorem mem_openScripts {image : Image} {info : ScriptInfo} {definition : Nat} :
    (info, definition) ∈ openScripts image ↔
      image.scripts[definition]? = some info ∧ info.isOpen = true := by
  simp only [openScripts, List.mem_filter, List.mem_zipIdx_iff_getElem?]

theorem openScripts_pairwise {image : Image} (himage : image.Sound) :
    (openScripts image).Pairwise fun a b => a.1.number ≠ b.1.number := by
  apply List.Pairwise.filter
  have h : (image.scripts.zipIdx.map Prod.fst).Pairwise (fun a b => a.number ≠ b.number) := by
    rw [List.zipIdx_map_fst]
    exact himage.numbers
  rw [List.pairwise_map] at h
  exact h

/-- Scheduling scripts that have no live instance and no number twice. -/
theorem schedule_advances (scripts : List (ScriptInfo × Nat)) (m : Machine)
    (hdeclared : ∀ script ∈ scripts, m.image.scripts[script.2]? = some script.1)
    (hdistinct : scripts.Pairwise fun a b => a.1.number ≠ b.1.number)
    (hfree : ∀ script ∈ scripts, ∀ k i, m.instances.get? k = some i →
      i.number ≠ script.1.number) :
    m.Advances scripts.length
      (scripts.foldl (fun m script => (m.schedule script.2 script.1).machine) m) := by
  induction scripts generalizing m with
  | nil => exact .refl m
  | cons script scripts ih =>
      rw [List.pairwise_cons] at hdistinct
      have hstep : m.Advances 1 (m.schedule script.2 script.1).machine :=
        ⟨rfl, rfl, rfl, rfl, InstanceTable.Grows.refl.insert m.config.openScriptDelay
          (hdeclared script List.mem_cons_self) (hfree script List.mem_cons_self)⟩
      rw [List.foldl_cons, List.length_cons, Nat.add_comm]
      refine hstep.trans (ih _ (fun other hother => ?_) hdistinct.2 fun other hother k i hi => ?_)
      · exact hdeclared other (List.mem_cons_of_mem _ hother)
      · simp only [schedule, InstanceTable.get?_insert] at hi
        split at hi
        · cases hi
          exact hdistinct.1 other hother
        · exact hfree other (List.mem_cons_of_mem _ hother) k i hi

theorem scheduleAll_advances {m : Machine} (himage : m.image.Sound)
    (hempty : ∀ k, m.instances.get? k = none) :
    m.Advances (openScripts m.image).length m.scheduleAll.machine := by
  rw [scheduleAll, Report.machine_foldl_andThen]
  apply schedule_advances
  · exact fun script hscript => (mem_openScripts.1 hscript).1
  · exact openScripts_pairwise himage
  · intro script _ k i hi
    rw [hempty k] at hi
    cases hi

/-! ## Waiting actions -/

/-- The handles taken while actions that were waiting are served in order. -/
def replayHandles (m : Machine) : List DeferredAction → Nat
  | [] => 0
  | action :: rest => (m.replayReply action).handles + (m.replay action).machine.replayHandles rest

theorem replayReply_advances (m : Machine) (action : DeferredAction) :
    m.Advances (m.replayReply action).handles (m.replayReply action).machine := by
  unfold replayReply
  cases action.kind with
  | execute => exact m.startHere_advances ..
  | suspend => exact m.suspendHere_advances ..
  | terminate => exact m.terminateHere_advances ..

/-- After a start the only instance of the script is the fresh one. -/
theorem state_of_started {m : Machine} {number : Int32} {args : SpecialArgs} {trigger : Trigger}
    (hstarted : (m.startHere number args trigger).answer = .ok .started) {k : UInt32}
    {i : ScriptInstance}
    (hi : (m.startHere number args trigger).machine.instances.get? k = some i)
    (hnumber : i.number = number) : i.state = .running := by
  unfold startHere at hstarted hi
  split at hstarted
  · cases hstarted
  · rename_i definition info hscript
    simp only [hscript] at hi
    split at hstarted
    · rename_i hfind
      simp only [hfind, InstanceTable.get?_insert] at hi
      split at hi
      · cases hi
        rfl
      · exact absurd hnumber (InstanceTable.find?_eq_none_iff.1 hfind k i hi)
    · split at hstarted <;> cases hstarted

theorem state_of_replayed {m : Machine} {action : DeferredAction}
    (hstarted : (m.replayReply action).answer = .ok .started) {k : UInt32} {i : ScriptInstance}
    (hi : (m.replayReply action).machine.instances.get? k = some i)
    (hnumber : i.number = action.script) : i.state = .running := by
  unfold replayReply at hstarted hi
  cases hkind : action.kind with
  | execute =>
      rw [hkind] at hstarted hi
      exact state_of_started hstarted hi hnumber
  | suspend =>
      rw [hkind] at hstarted
      simp only [suspendHere] at hstarted
      split at hstarted
      · cases hstarted
      · split at hstarted <;> cases hstarted
  | terminate =>
      rw [hkind] at hstarted
      simp only [terminateHere] at hstarted
      split at hstarted
      · cases hstarted
      · split at hstarted <;> cases hstarted

theorem replay_advances (m : Machine) (action : DeferredAction) :
    m.Advances (m.replayReply action).handles (m.replay action).machine := by
  have hreply := m.replayReply_advances action
  unfold replay
  simp only
  split
  · exact hreply
  · rename_i hstarted
    split
    · rename_i h hfind
      obtain ⟨⟨k, found⟩, hfound, rfl⟩ := Option.map_eq_some_iff.1 hfind
      obtain ⟨hget, hnumber⟩ := InstanceTable.get?_of_find? hfound
      rw [← Nat.add_zero (Reply.handles _)]
      refine hreply.trans (.of_evolves (InstanceTable.evolves_modify fun i hi => ?_))
      rw [hget] at hi
      cases hi
      -- the delay goes to the instance just made, which waits for nothing
      have hrunning := state_of_replayed hstarted hget hnumber
      refine .idle found.state _ fun on hon => ?_
      rw [hrunning] at hon
      cases hon
    · exact hreply
  · exact hreply

theorem replays_advances (m : Machine) (actions : List DeferredAction) :
    m.Advances (m.replayHandles actions)
      (actions.foldl (fun m action => (m.replay action).machine) m) := by
  induction actions generalizing m with
  | nil => exact .refl m
  | cons action rest ih => exact (m.replay_advances action).trans (ih (m.replay action).machine)

/-! ## The whole load -/

/-- The handles taken by the actions that wait for the loaded map. -/
def replayAllHandles (m : Machine) : Nat :=
  replayHandles { m with deferred := m.deferred.without m.map } (m.deferred.forMap m.map)

theorem replayAll_advances (m : Machine) : m.Advances m.replayAllHandles m.replayAll.machine := by
  rw [replayAll, Report.machine_foldl_andThen]
  have hrest := replays_advances { m with deferred := m.deferred.without m.map }
    (m.deferred.forMap m.map)
  exact ⟨hrest.config, hrest.image, hrest.map, hrest.limit, hrest.table⟩

/-- The handles taken while a map is entered. -/
def enterHandles (m : Machine) (map : Int32) (image : Image) : Nat :=
  (openScripts image).length + (m.reset map image).scheduleAll.machine.replayAllHandles

theorem enter_advances (m : Machine) (map : Int32) {image : Image} (himage : image.Sound) :
    (m.reset map image).Advances (m.enterHandles map image) (m.enter map image).machine := by
  have hschedule : (m.reset map image).Advances (openScripts image).length
      (m.reset map image).scheduleAll.machine :=
    scheduleAll_advances himage fun _ => rfl
  exact hschedule.trans (replayAll_advances _)

/-- The image that a map is entered with: the one in the bytes, or none. -/
def loadedImage (bytes : List UInt8) : Image :=
  match Image.parse bytes with
  | .ok image => image
  | .error _ => .empty

theorem sound_loadedImage (bytes : List UInt8) : (loadedImage bytes).Sound := by
  unfold loadedImage
  split
  · rename_i h
    exact Image.sound_of_parse h
  · exact Image.sound_empty

theorem machine_load (m : Machine) (map : Int32) (bytes : List UInt8) :
    (m.load map bytes).report.machine = (m.enter map (loadedImage bytes)).machine := by
  unfold load loadedImage
  cases Image.parse bytes with
  | ok image => rfl
  | error e => rfl

end Machine

end MapScript
