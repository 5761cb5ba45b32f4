import MapScript.Proofs.Machine.Snapshots
import MapScript.Proofs.Machine.Turns

/-!
# Turns are isolated

However the turn of an instance ends, the other instances keep all but their state, and even that
changes only because they waited for it or because it asked for the change.
-/

namespace MapScript.Session

/-- Let the counter of handles be above every live handle and not start over in the turn of the
instance under `h`.

Every other live instance stays live and keeps all but its state.  Its state becomes running where
it waits for the script of the instance under `h` and that one is removed, and then it takes in
order the requests of the turn that reach it.

A turn of an instance that is suspended or still waits changes nothing.  One of an instance that may
run but has a delay left only sets it running and takes one off the delay.  One of a terminating
instance only removes it and wakes those that wait for its script.  A slice that faults is followed
by the same as one that terminates: the instance is removed, those that wait for its script are
woken, and the requests raised so far are served in order. -/
theorem turn_isolated (s : Session) (h : UInt32) (hfresh : s.machine.instances.Fresh)
    (hcount : s.machine.instances.next.toNat + s.turnHandles h < UInt32.size) :
    (∀ k i, k ≠ h → s.machine.instances.get? k = some i →
      ∃ woken, (s.turn h).machine.instances.get? k =
          some { i with state := woken.afterRequests (s.reaching h k) } ∧
        (woken = i.state ∨ ∃ j, s.machine.instances.get? h = some j ∧
          (s.turn h).machine.instances.get? h = none ∧
          i.state = .waiting (.script j.number) ∧ woken = .running)) ∧
    ∀ i, s.machine.instances.get? h = some i →
      (s.Held i → s.turn h = s) ∧
      (s.Runnable i → i.delay ≠ 0 → s.turn h = s.satOut h i) ∧
      (i.state = .terminating → s.turn h = s.ended h i) ∧
      (s.Runnable i → i.delay = 0 →
        ((s.sliced i).ending = .terminate ∨ ∃ f, (s.sliced i).ending = .fault f) →
        (s.turn h).machine.instances.get? h = none ∧
        (s.turn h).host = (s.sliced i).context.host ∧
        (s.turn h).machine =
          (s.sliced i).context.requests.toList.foldl (fun m r => (m.serve r).machine)
            { s.machine with
              worldVars := (s.sliced i).context.world
              mapVars := (s.sliced i).context.map
              print := (s.sliced i).context.print
              rng := (s.sliced i).context.rng
              instances := (s.machine.instances.remove h).wake (.script i.number) }) := by
  have hplays := s.play_plays h
  -- first the others, then the instance under `h` by what it may do
  refine ⟨fun k i hk hi => ?_, fun i hi => ⟨fun hheld => ?_, fun hrunnable hdelay => ?_,
    fun hstate => ?_, fun hrunnable hdelay hend => ?_⟩⟩
  · have hlt := hfresh k i hi
    rcases hplays.get?_of_ne hk hi with hsame | ⟨j, hj, hremoved, hstate, hwoken⟩
    · exact ⟨i.state, get?_turn hlt hcount hsame, .inl rfl⟩
    · refine ⟨.running, get?_turn hlt hcount hwoken, .inr ⟨j, hj, ?_, hstate, rfl⟩⟩
      exact get?_turn_eq_none (hfresh h j hj) hcount hremoved
  · rw [turn, play_of_held hi hheld]
    rfl
  · rw [turn, play_of_runnable hi hrunnable, run_of_delay hi hdelay]
    rfl
  · rw [turn, play_of_terminating hi hstate, finish_of_some hi]
    rfl
  · have hplay : s.play h = s.slice h { i with state := .running } := by
      rw [play_of_runnable hi hrunnable, run_of_no_delay hdelay]
    obtain ⟨hmachine, hhost⟩ := slice_of_ends hi hend
    refine ⟨get?_turn_eq_none (hfresh h i hi) hcount ?_, ?_, ?_⟩
    · rw [hplay, hmachine, InstanceTable.get?_wake, InstanceTable.get?_remove, if_pos rfl,
        Option.map_none]
    · rw [turn, host_serveAll, hplay, hhost]
    · rw [turn, machine_serveAll, hplay, hmachine]
      rfl

/-- The script that faults is gone, and the one that waited for it runs and is otherwise as it
was. -/
theorem turn_isolated_faulting :
    faulting.machine.instances.Fresh ∧
    faulting.machine.instances.next.toNat + faulting.turnHandles 2 < UInt32.size ∧
    (∃ i, faulting.machine.instances.get? 2 = some i ∧
      (faulting.sliced i).ending = .fault .divideByZero) ∧
    (faulting.turn 2).machine.instances.get? 2 = none ∧
    faulting.machine.instances.get? 1 = some faultingWaiter ∧
    (faulting.turn 2).machine.instances.get? 1 =
      some { faultingWaiter with state := .running } := by
  have hfresh : faulting.machine.instances.Fresh :=
    Machine.checkNext_eq_ok_iff.1 (by decide +kernel)
  have hcount : faulting.machine.instances.next.toNat + faulting.turnHandles 2 < UInt32.size := by
    decide +kernel
  have hwaiter : faulting.machine.instances.get? 1 = some faultingWaiter := by decide +kernel
  have hscript : faulting.machine.instances.get? 2 =
      some (.new 1 ⟨2, 5, 0, true⟩ .zero .none) := by decide +kernel
  have hfault : (faulting.sliced (.new 1 ⟨2, 5, 0, true⟩ .zero .none)).ending =
      .fault .divideByZero := by decide +kernel
  obtain ⟨hothers, hown⟩ := turn_isolated faulting 2 hfresh hcount
  have hended := (hown _ hscript).2.2.2 (.inl rfl) rfl (.inr ⟨_, hfault⟩)
  refine ⟨hfresh, hcount, ⟨_, hscript, hfault⟩, hended.1, hwaiter, ?_⟩
  have hunasked : faulting.reaching 2 1 = [] := by decide +kernel
  obtain ⟨woken, hwoken, hsame | ⟨_, _, _, _, hrunning⟩⟩ :=
    hothers 1 faultingWaiter (by decide) hwaiter
  · rw [hsame, hunasked] at hwoken
    exact absurd hwoken (by decide +kernel)
  · rw [hrunning, hunasked] at hwoken
    exact hwoken

end MapScript.Session
