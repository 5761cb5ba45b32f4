import MapScript.Proofs.Interpreter.Hosts
import MapScript.Proofs.Machine.Turns

/-!
# Draining a host

A tick only adds to the events of its host and never looks at them.  With other events recorded
before, every part of a tick does the same and leaves these events in front: `tick_withPast`.
-/

namespace MapScript

namespace Host

/-- The host with some events recorded before its own. -/
def withPast (past : Array HostEvent) (h : Host) : Host := { h with events := past ++ h.events }

theorem withPast_unnoticed (past : Array HostEvent) : Unnoticed (withPast past) := by
  refine ⟨fun h e => ?_, fun _ => rfl, fun _ => rfl, fun _ => rfl, fun _ => rfl, fun _ => rfl⟩
  simp only [withPast, record, Array.append_push]

theorem withPast_drain (h : Host) : h.drain.withPast h.events = h := by
  simp only [withPast, drain, Array.append_empty]

end Host

namespace Session

def withPast (past : Array HostEvent) (s : Session) : Session :=
  { s with host := s.host.withPast past }

def drain (s : Session) : Session := { s with host := s.host.drain }

theorem withPast_drain (s : Session) : s.drain.withPast s.host.events = s := by
  simp only [withPast, drain, Host.withPast_drain]

end Session

def Played.withPast (past : Array HostEvent) (p : Played) : Played :=
  { p with session := p.session.withPast past }

namespace Session

variable (past : Array HostEvent) (s : Session)

theorem finish_withPast (h : UInt32) :
    (s.withPast past).finish h = (s.finish h).withPast past := by
  unfold finish
  simp only [withPast]
  split <;> rfl

theorem serveAll_withPast (requests : List ScriptRequest) :
    requests.foldl serve (s.withPast past) = (requests.foldl serve s).withPast past := by
  induction requests generalizing s with
  | nil => rfl
  | cons r rest ih => exact ih (s.serve r)

theorem absorb_withPast (h : UInt32) (r : Stepped) :
    (s.withPast past).absorb h (r.onHost (Host.withPast past)) =
      (s.absorb h r).withPast past := rfl

theorem slice_withPast (h : UInt32) (i : ScriptInstance) :
    (s.withPast past).slice h i = (s.slice h i).withPast past := by
  have hrun : runSlice (s.withPast past).machine.image
      (s.withPast past).machine.config.runawayLimit i (s.withPast past).context =
        (runSlice s.machine.image s.machine.config.runawayLimit i s.context).onHost
          (Host.withPast past) :=
    runSlice_onHost (Host.withPast_unnoticed past) _ _ i s.context
  simp only [slice, hrun, absorb_withPast]
  cases hend : (runSlice s.machine.image s.machine.config.runawayLimit i s.context).ending with
  | «continue» | yield =>
      simp only [Stepped.onHost, hend]
      rfl
  | terminate =>
      simp only [Stepped.onHost, hend, finish_withPast]
      rfl
  | fault f =>
      -- a report is made no matter what was recorded
      have hnote : ∀ (t : Session) n, (t.withPast past).note n = (t.note n).withPast past :=
        fun _ _ => rfl
      simp only [Stepped.onHost, hend, hnote, finish_withPast]
      rfl

theorem run_withPast (h : UInt32) (i : ScriptInstance) :
    (s.withPast past).run h i = (s.run h i).withPast past := by
  unfold run
  split
  · exact s.slice_withPast past h _
  · rfl

theorem pending_withPast (on : Awaited) : (s.withPast past).pending on = s.pending on := by
  cases on <;> rfl

theorem play_withPast (h : UInt32) :
    (s.withPast past).play h = (s.play h).withPast past := by
  have hget : (s.withPast past).machine = s.machine := rfl
  unfold play
  rw [hget]
  split
  · rfl
  · split
    · rw [finish_withPast]
      rfl
    · rfl
    · exact s.run_withPast past h _
    · rw [pending_withPast]
      split
      · rfl
      · exact s.run_withPast past h _

theorem turn_withPast (h : UInt32) : (s.withPast past).turn h = (s.turn h).withPast past := by
  simp only [turn, play_withPast]
  exact serveAll_withPast past (s.play h).session (s.play h).requests

theorem turns_withPast (handles : List UInt32) :
    handles.foldl turn (s.withPast past) = (handles.foldl turn s).withPast past := by
  induction handles generalizing s with
  | nil => rfl
  | cons h rest ih =>
      rw [List.foldl_cons, List.foldl_cons, turn_withPast]
      exact ih (s.turn h)

/-- Events recorded before a tick stay in front of those of the tick and change nothing else. -/
theorem tick_withPast : (s.withPast past).tick = s.tick.withPast past :=
  s.turns_withPast past s.machine.instances.handles

/-- A tick is the one on the drained host, behind what was recorded before. -/
theorem tick_drain : s.tick = s.drain.tick.withPast s.host.events := by
  rw [← tick_withPast, withPast_drain]

end Session

end MapScript
