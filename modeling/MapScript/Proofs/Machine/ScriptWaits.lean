import MapScript.Proofs.Machine.Snapshots
import MapScript.Proofs.Machine.Turns

/-!
# Waiting for a script

An instance that waits for a script is woken in the very turn in which the script's instance is
removed, so that it never comes to wait for a later instance of that script, and nothing but a
request for its own script ends its wait earlier.
-/

namespace MapScript.Session

variable {s : Session} {h w : UInt32} {i : ScriptInstance} {number : Int32}

section

variable (hcount : s.machine.instances.next.toNat + s.turnHandles h < UInt32.size)
include hcount

/-- A live instance lives on as one of its script, or it is the one whose turn it is and it is
removed. -/
theorem number_turn (hfresh : s.machine.instances.Fresh) {k : UInt32} {j : ScriptInstance}
    (hj : s.machine.instances.get? k = some j) :
    (∃ j', (s.turn h).machine.instances.get? k = some j' ∧ j'.number = j.number) ∨
      k = h ∧ (s.play h).session.machine.instances.get? h = none := by
  have hplays := s.play_plays h
  have hlt := hfresh k j hj
  by_cases hk : k = h
  · subst hk
    rcases hplays.get?_self hj with ⟨j', hj', hnumber⟩ | ⟨hremoved, _⟩
    · exact .inl ⟨_, get?_turn hlt hcount hj', hnumber⟩
    · exact .inr ⟨rfl, hremoved⟩
  · rcases hplays.get?_of_ne hk hj with hsame | ⟨_, _, _, _, hwoken⟩
    · exact .inl ⟨_, get?_turn hlt hcount hsame, rfl⟩
    · exact .inl ⟨_, get?_turn hlt hcount hwoken, rfl⟩

/-- Whoever still waits for a script after a turn waits for the instance it waited for before. -/
theorem awaited_kept (hfresh : s.machine.instances.Fresh) {i' : ScriptInstance}
    (hi : (s.play h).session.machine.instances.get? w = some i')
    (hwait : i'.state.afterRequests (s.reaching h w) = .waiting (.script number)) {k : UInt32}
    {j : ScriptInstance} (hj : s.machine.instances.get? k = some j) (hnumber : j.number = number) :
    ∃ j', (s.turn h).machine.instances.get? k = some j' ∧ j'.number = number := by
  rcases number_turn hcount hfresh hj with ⟨j', hj', hsame⟩ | ⟨rfl, hremoved⟩
  · exact ⟨j', hj', hsame.trans hnumber⟩
  · -- the awaited instance is gone, so its waiters were woken, and no request makes them wait again
    rcases (s.play_plays k).get?_self hj with ⟨j', hj', _⟩ | ⟨_, hwoken⟩
    · rw [hremoved] at hj'
      cases hj'
    · subst hnumber
      exact absurd (ScriptState.eq_waiting_of_afterRequests hwait) (hwoken w i' hi)

end

/-- Where nothing but starts of its script reach an instance that is not suspended, its state
stays. -/
theorem afterRequests_reaching (hi : (s.play h).session.machine.instances.get? w = some i)
    (hstate : i.state ≠ .suspended)
    (hunasked : ∀ r ∈ (s.play h).requests, r.script = i.number →
      r.kind = .execute ∨ s.machine.isElsewhere r.map = true) :
    i.state.afterRequests (s.reaching h w) = i.state := by
  apply ScriptState.afterRequests_of_execute hstate
  intro r hr
  obtain ⟨hmem, hscript, hhere⟩ := mem_reaching hr hi
  rcases hunasked r hmem hscript with hkind | helsewhere
  · exact hkind
  · rw [hhere] at helsewhere
    cases helsewhere

theorem pending_script_iff :
    s.pending (.script number) = true ↔
      ∃ k j, s.machine.instances.get? k = some j ∧ j.number = number :=
  InstanceTable.contains_iff

/-- Let an instance `i` under the handle `w` wait for a script, and let the counter of handles be
above every live handle.

In the turn of another instance in which the counter does not start over, `i` keeps all but its
state.  If it still waits for the script after the turn, every instance of the script that was live
before is live under the same handle and of the same script.  If it does not, and the turn raised no
request to suspend or end its script, then it is running, and the instance whose turn it was is of
the awaited script and was removed.

In its own turn nothing at all changes as long as some instance of the script is live.  Otherwise it
is set running, and then one is taken off its delay or, where it has none, it runs a slice. -/
theorem script_wait_exact (s : Session) (w : UInt32) (i : ScriptInstance) (number : Int32)
    (hfresh : s.machine.instances.Fresh) (hi : s.machine.instances.get? w = some i)
    (hwait : i.state = .waiting (.script number)) :
    (∀ h, h ≠ w → s.machine.instances.next.toNat + s.turnHandles h < UInt32.size →
      ∃ state, (s.turn h).machine.instances.get? w = some { i with state } ∧
        (state = .waiting (.script number) →
          ∀ k j, s.machine.instances.get? k = some j → j.number = number →
            ∃ j', (s.turn h).machine.instances.get? k = some j' ∧ j'.number = number) ∧
        (state ≠ .waiting (.script number) →
          (∀ r ∈ (s.play h).requests, r.script = i.number →
            r.kind = .execute ∨ s.machine.isElsewhere r.map = true) →
          state = .running ∧ ∃ j, s.machine.instances.get? h = some j ∧ j.number = number ∧
            (s.turn h).machine.instances.get? h = none)) ∧
    ((∃ k j, s.machine.instances.get? k = some j ∧ j.number = number) → s.turn w = s) ∧
    ((∀ k j, s.machine.instances.get? k = some j → j.number ≠ number) →
      (i.delay ≠ 0 → s.turn w = s.satOut w i) ∧
      (i.delay = 0 → s.play w = s.slice w { i with state := .running })) := by
  refine ⟨fun h hne hcount => ?_, fun hlive => ?_, fun hgone => ?_⟩
  · have hlt := hfresh w i hi
    rcases (s.play_plays h).get?_of_ne hne.symm hi with hsame | ⟨j, hj, hremoved, hstate, hwoken⟩
    · refine ⟨i.state.afterRequests (s.reaching h w), get?_turn hlt hcount hsame,
        fun hstill k j hj hnumber => ?_, fun hleft hunasked => ?_⟩
      · exact awaited_kept hcount hfresh hsame hstill hj hnumber
      · have hstate := afterRequests_reaching hsame (by rw [hwait]; exact nofun) hunasked
        exact absurd (hstate.trans hwait) hleft
    · refine ⟨ScriptState.running.afterRequests (s.reaching h w), get?_turn hlt hcount hwoken,
        fun hstill k j hj hnumber => ?_, fun hleft hunasked => ⟨?_, j, hj, ?_, ?_⟩⟩
      · exact awaited_kept hcount hfresh hwoken hstill hj hnumber
      · exact afterRequests_reaching hwoken nofun hunasked
      · rw [hwait] at hstate
        cases hstate
        rfl
      · exact get?_turn_eq_none (hfresh h j hj) hcount hremoved
  · have hheld : s.Held i := .inr ⟨_, hwait, pending_script_iff.2 hlive⟩
    rw [turn, play_of_held hi hheld]
    rfl
  · have hover : s.pending (.script number) = false := by
      rw [← Bool.not_eq_true, pending_script_iff]
      rintro ⟨k, j, hj, hnumber⟩
      exact hgone k j hj hnumber
    have hplay := play_of_runnable hi (.inr ⟨_, hwait, hover⟩)
    constructor
    · intro hdelay
      rw [turn, hplay, run_of_delay hi hdelay]
      rfl
    · intro hdelay
      rw [hplay, run_of_no_delay hdelay]

/-- The awaited script faults and is started again in the same turn, and the waiter runs. -/
theorem script_wait_exact_faulting :
    faulting.machine.instances.Fresh ∧
    faulting.machine.instances.get? 1 = some faultingWaiter ∧
    faultingWaiter.state = .waiting (.script 2) ∧
    faulting.machine.instances.next.toNat + faulting.turnHandles 2 < UInt32.size ∧
    (faulting.turn 2).machine.instances.findHandle? 2 = some 4 ∧
    ∃ state, (faulting.turn 2).machine.instances.get? 1 = some { faultingWaiter with state } ∧
      state = .running ∧ ∃ j, faulting.machine.instances.get? 2 = some j ∧ j.number = 2 ∧
        (faulting.turn 2).machine.instances.get? 2 = none := by
  have hfresh : faulting.machine.instances.Fresh :=
    Machine.checkNext_eq_ok_iff.1 (by decide +kernel)
  have hwaiter : faulting.machine.instances.get? 1 = some faultingWaiter := by decide +kernel
  have hcount : faulting.machine.instances.next.toNat + faulting.turnHandles 2 < UInt32.size := by
    decide +kernel
  refine ⟨hfresh, hwaiter, rfl, hcount, by decide +kernel, ?_⟩
  obtain ⟨hothers, _⟩ := script_wait_exact faulting 1 faultingWaiter 2 hfresh hwaiter rfl
  obtain ⟨state, hafter, _, hleft⟩ := hothers 2 (by decide) hcount
  have hrunning : (faulting.turn 2).machine.instances.get? 1 =
      some { faultingWaiter with state := .running } := by decide +kernel
  refine ⟨state, hafter, hleft ?_ (by decide +kernel)⟩
  rintro rfl
  rw [hrunning] at hafter
  exact absurd hafter (by decide)

end MapScript.Session
