import MapScript.Proofs.Interpreter.Iteration
import MapScript.Proofs.Machine.Moments

/-!
# Ticks under a greater limit

The limit of a slice is read nowhere but in the slices of a tick.  A tick in which no slice runs
into it is therefore the same under every greater limit, part by part: `tick_withLimit`.
-/

namespace MapScript

def Machine.withLimit (limit : UInt32) (m : Machine) : Machine :=
  { m with config := { m.config with runawayLimit := limit } }

def Reply.withLimit (limit : UInt32) (r : Reply) : Reply :=
  { r with machine := r.machine.withLimit limit }

def Session.withLimit (limit : UInt32) (s : Session) : Session :=
  { s with machine := s.machine.withLimit limit }

def Played.withLimit (limit : UInt32) (p : Played) : Played :=
  { p with session := p.session.withLimit limit }

/-! ## Requests -/

namespace Machine

variable (limit : UInt32) (m : Machine)

theorem startHere_withLimit (number : Int32) (args : SpecialArgs) (trigger : Trigger) :
    (m.withLimit limit).startHere number args trigger =
      (m.startHere number args trigger).withLimit limit := by
  unfold startHere
  simp only [withLimit]
  split
  · rfl
  · split
    · rfl
    · split <;> rfl

theorem suspendHere_withLimit (number : Int32) :
    (m.withLimit limit).suspendHere number = (m.suspendHere number).withLimit limit := by
  unfold suspendHere
  simp only [withLimit]
  split
  · rfl
  · split <;> rfl

theorem terminateHere_withLimit (number : Int32) :
    (m.withLimit limit).terminateHere number = (m.terminateHere number).withLimit limit := by
  unfold terminateHere
  simp only [withLimit]
  split
  · rfl
  · split <;> rfl

theorem serve_withLimit (r : ScriptRequest) :
    (m.withLimit limit).serve r = (m.serve r).withLimit limit := by
  have helsewhere : (m.withLimit limit).isElsewhere r.map = m.isElsewhere r.map := rfl
  unfold serve start suspend terminate
  rw [helsewhere]
  cases m.isElsewhere r.map with
  | true => cases r.kind <;> rfl
  | false =>
      cases r.kind with
      | execute => exact m.startHere_withLimit limit r.script r.args r.trigger
      | suspend => exact m.suspendHere_withLimit limit r.script
      | terminate => exact m.terminateHere_withLimit limit r.script

end Machine

/-! ## Turns -/

namespace Session

/-- The instance under a handle, where it runs a slice in its turn, does not run into the limit. -/
def Within (s : Session) (h : UInt32) : Prop :=
  ∀ i, s.slicing? h = some i →
    (s.sliced i).ending ≠ .fault (.runaway s.machine.config.runawayLimit)

/-- No slice of a tick runs into the limit. -/
def TicksWithin (s : Session) : Prop :=
  ∀ p ∈ s.turnMoments s.machine.instances.handles, p.1.Within p.2

variable {limit : UInt32} {s : Session} {h : UInt32} {i : ScriptInstance}

theorem serveAll_withLimit (limit : UInt32) (s : Session) (requests : List ScriptRequest) :
    requests.foldl serve (s.withLimit limit) = (requests.foldl serve s).withLimit limit := by
  induction requests generalizing s with
  | nil => rfl
  | cons r rest ih =>
      have hserve : (s.withLimit limit).serve r = (s.serve r).withLimit limit := by
        have hreply : (s.withLimit limit).machine.serve r = (s.machine.serve r).withLimit limit :=
          s.machine.serve_withLimit limit r
        simp only [serve, hreply]
        rfl
      rw [List.foldl_cons, List.foldl_cons, hserve]
      exact ih (s.serve r)

theorem finish_withLimit (limit : UInt32) (s : Session) (h : UInt32) :
    (s.withLimit limit).finish h = (s.finish h).withLimit limit := by
  unfold finish
  simp only [withLimit, Machine.withLimit]
  split <;> rfl

theorem absorb_withLimit (limit : UInt32) (s : Session) (h : UInt32) (r : Stepped) :
    (s.withLimit limit).absorb h r = (s.absorb h r).withLimit limit := rfl

theorem note_withLimit (limit : UInt32) (s : Session) (n : Notice) :
    (s.withLimit limit).note n = (s.note n).withLimit limit := rfl

theorem slice_withLimit (hle : s.machine.config.runawayLimit ≤ limit)
    (hwithin : (s.sliced i).ending ≠ .fault (.runaway s.machine.config.runawayLimit)) :
    (s.withLimit limit).slice h { i with state := .running } =
      (s.slice h { i with state := .running }).withLimit limit := by
  have hsliced : (s.withLimit limit).sliced i = s.sliced i := runSlice_of_le hle hwithin
  have hsession : ((s.withLimit limit).slice h { i with state := .running }).session =
      (s.slice h { i with state := .running }).session.withLimit limit := by
    rw [session_slice, session_slice, hsliced, absorb_withLimit]
    split
    · rfl
    · rfl
    · exact finish_withLimit limit _ h
    · rw [note_withLimit]
      exact finish_withLimit limit _ h
  calc (s.withLimit limit).slice h { i with state := .running }
      = ⟨((s.withLimit limit).slice h { i with state := .running }).session,
          ((s.withLimit limit).sliced i).context.requests.toList⟩ := rfl
    _ = (s.slice h { i with state := .running }).withLimit limit := by
        rw [hsession, hsliced]
        rfl

theorem pending_withLimit (limit : UInt32) (s : Session) (on : Awaited) :
    (s.withLimit limit).pending on = s.pending on := by
  cases on <;> rfl

theorem play_withLimit (hle : s.machine.config.runawayLimit ≤ limit) (hwithin : s.Within h) :
    (s.withLimit limit).play h = (s.play h).withLimit limit := by
  have hget : (s.withLimit limit).machine.instances = s.machine.instances := rfl
  cases hi : s.machine.instances.get? h with
  | none =>
      rw [play_of_none hi, play_of_none (hget ▸ hi)]
      rfl
  | some i =>
      have hi' : (s.withLimit limit).machine.instances.get? h = some i := hi
      rcases s.held_or_runnable i with hstate | hheld | hrunnable
      · rw [play_of_terminating hi hstate, play_of_terminating hi' hstate, finish_withLimit]
        rfl
      · have hheld' : (s.withLimit limit).Held i := by
          simpa only [Held, pending_withLimit] using hheld
        rw [play_of_held hi hheld, play_of_held hi' hheld']
        rfl
      · have hrunnable' : (s.withLimit limit).Runnable i := by
          simpa only [Runnable, pending_withLimit] using hrunnable
        rw [play_of_runnable hi hrunnable, play_of_runnable hi' hrunnable']
        by_cases hdelay : i.delay = 0
        · rw [run_of_no_delay hdelay, run_of_no_delay hdelay]
          exact slice_withLimit hle (hwithin i (slicing?_eq_some_iff.2 ⟨hi, hrunnable, hdelay⟩))
        · rw [run_of_delay hi hdelay, run_of_delay hi' hdelay]
          rfl

theorem turn_withLimit (hle : s.machine.config.runawayLimit ≤ limit) (hwithin : s.Within h) :
    (s.withLimit limit).turn h = (s.turn h).withLimit limit := by
  simp only [turn, play_withLimit hle hwithin]
  exact serveAll_withLimit limit (s.play h).session (s.play h).requests

theorem turns_withLimit {handles : List UInt32} (hle : s.machine.config.runawayLimit ≤ limit)
    (hwithin : ∀ p ∈ s.turnMoments handles, p.1.Within p.2) :
    handles.foldl turn (s.withLimit limit) = (handles.foldl turn s).withLimit limit := by
  induction handles generalizing s with
  | nil => rfl
  | cons h rest ih =>
      rw [turnMoments, List.forall_mem_cons] at hwithin
      rw [List.foldl_cons, List.foldl_cons, turn_withLimit hle hwithin.1]
      -- a turn leaves the configuration, so that the rest is under the same limit
      exact ih (by rw [(s.turn_advances h).config]; exact hle) hwithin.2

/-- A tick in which no slice runs into the limit is the same under every greater limit. -/
theorem tick_withLimit (hle : s.machine.config.runawayLimit ≤ limit) (hwithin : s.TicksWithin) :
    (s.withLimit limit).tick = s.tick.withLimit limit :=
  turns_withLimit hle hwithin

end Session

/-- A slice is bounded iteration of steps.  Where a first step does not go on and comes within the
limit, the slice is that step, with all that was reached; otherwise every step up to the limit goes
on, and the slice is a fault where they have led.  So a slice that does not run into its limit is
the same under every greater one, and so is, but for the limit in the configuration, a whole tick
in which no slice does: machine, host and reports. -/
theorem runSlice_iterates (image : Image) (i : ScriptInstance) (c : Context) (limit : UInt32) :
    (∀ k, StopsAfter image i c k → k ≤ limit.toNat →
      runSlice image limit i c = nthStep image i c k) ∧
    ((¬ ∃ k ≤ limit.toNat, StopsAfter image i c k) →
      (∀ j ≤ limit.toNat, (nthStep image i c j).ending = .continue) ∧
      runSlice image limit i c =
        ⟨.fault (.runaway limit), (nthStep image i c limit.toNat).inst,
          (nthStep image i c limit.toNat).context⟩) ∧
    (∀ limit', limit ≤ limit' → (runSlice image limit i c).ending ≠ .fault (.runaway limit) →
      runSlice image limit' i c = runSlice image limit i c) ∧
    ∀ (s : Session) limit', s.machine.config.runawayLimit ≤ limit' → s.TicksWithin →
      (s.withLimit limit').tick = s.tick.withLimit limit' := by
  refine ⟨fun k hstops hk => runSlice_of_stopsAfter hstops hk, fun hnone => ?_,
    fun limit' hle hwithin => runSlice_of_le hle hwithin,
    fun s limit' hle hwithin => Session.tick_withLimit hle hwithin⟩
  obtain hstops | hgoesOn := stopsAfter_or_goesOn image i c limit.toNat
  · exact absurd hstops hnone
  · exact ⟨hgoesOn, runSlice_of_goesOn hgoesOn⟩

/-- An image whose open script does nothing twice and then suspends itself. -/
def briefBytes : List UInt8 := Word.join [0x534341, 24, 0, 0, 2, 1, 1, 1001, 8, 0, 0]

/-- The moment before its slice, in which three instructions are allowed. -/
def brief : Session where
  machine := ((Machine.new { runawayLimit := 3, openScriptDelay := 0 } 0).load 1
    briefBytes).report.machine
  host := .new

/-- Three instructions are enough and two are not. -/
theorem runSlice_iterates_brief :
    let image := brief.machine.image
    let i := ScriptInstance.new 0 ⟨1, 2, 0, true⟩ .zero .none
    let c := brief.context
    (runSlice image 3 i c = nthStep image i c 3 ∧ (runSlice image 3 i c).ending = .yield) ∧
    runSlice image 2 i c =
      ⟨.fault (.runaway 2), (nthStep image i c 2).inst, (nthStep image i c 2).context⟩ ∧
    runSlice image 500000 i c = runSlice image 3 i c ∧
    (brief.slicing? 1 = some i ∧ (brief.withLimit 500000).tick = brief.tick.withLimit 500000) := by
  intro image i c
  have hstops : StopsAfter image i c 3 := ⟨by decide +kernel, by decide +kernel⟩
  have hgoesOn : ∀ k ≤ 2, (nthStep image i c k).ending = .continue := by decide +kernel
  have hnone : ¬ ∃ k ≤ (2 : UInt32).toNat, StopsAfter image i c k :=
    fun ⟨k, hk, hstops⟩ => hstops.stops (hgoesOn k hk)
  have hyield : (runSlice image 3 i c).ending = .yield := by decide +kernel
  have hslicing : brief.slicing? 1 = some i := by decide +kernel
  have hwithin : brief.TicksWithin := by
    have hhandles : brief.machine.instances.handles = [1] := by decide +kernel
    rw [Session.TicksWithin, hhandles]
    refine List.forall_mem_singleton.2 fun j hj => ?_
    rw [hslicing] at hj
    cases hj
    decide +kernel
  obtain ⟨hthree, _, hgreater, htick⟩ := runSlice_iterates image i c 3
  refine ⟨⟨hthree 3 hstops (Nat.le_refl 3), hyield⟩, ?_, ?_, hslicing, ?_⟩
  · exact ((runSlice_iterates image i c 2).2.1 hnone).2
  · exact hgreater 500000 (by decide) (by rw [hyield]; exact nofun)
  · exact htick brief 500000 (by decide +kernel) hwithin

end MapScript
