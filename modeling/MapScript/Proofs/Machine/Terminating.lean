import MapScript.Proofs.Machine.Bystanders

/-!
# Terminating instances

An instance that is marked to end stays as it is until its next turn, which does nothing but remove
it.  Until then it keeps its script from being started, suspended or ended again.
-/

namespace MapScript

theorem InstanceTable.Distinct.find?_number {t : InstanceTable} {h : UInt32} {i : ScriptInstance}
    (ht : t.Distinct) (hi : t.get? h = some i) : t.find? i.number = some (h, i) := by
  cases hfind : t.find? i.number with
  | none => exact absurd rfl (find?_eq_none_iff.1 hfind h i hi)
  | some found =>
      obtain ⟨hget, hnumber⟩ := get?_of_find? hfind
      have hhandle := ht found.1 h found.2 i hget hi hnumber
      rw [hhandle, hi] at hget
      rw [← hhandle, Option.some.inj hget]

/-- In its own part of a turn a terminating instance is only removed. -/
theorem Session.play_removes {s : Session} {h : UInt32} {i : ScriptInstance}
    (hstate : i.state = .terminating)
    (hkept : s.machine.instances.get? h = some i ∨ s.machine.instances.get? h = none) :
    s.slicing? h = none ∧ (s.play h).session.machine.instances.get? h = none := by
  rcases hkept with hi | hnone
  · exact ⟨slicing?_of_some hi (by simp [Runnable, hstate]), get?_play_of_terminating hi hstate⟩
  · rw [play_of_none hnone]
    exact ⟨slicing?_of_none hnone, hnone⟩

namespace Machine

/-- Under a handle that has been given out there is the given instance or nothing, and no script
has two instances. -/
structure Doomed (h : UInt32) (i : ScriptInstance) (m : Machine) : Prop where
  below : h < m.instances.next
  distinct : m.instances.Distinct
  kept : m.instances.get? h = some i ∨ m.instances.get? h = none

variable {m m' : Machine} {h : UInt32} {i : ScriptInstance}

section

variable (hstate : i.state = .terminating)
include hstate

theorem Doomed.advance {n : Nat} (hm : Doomed h i m) (hadvances : m.Advances n m')
    (hcount : m.instances.next.toNat + n < UInt32.size)
    (hspares : m.instances.Spares h m'.instances) : Doomed h i m' := by
  refine ⟨hadvances.lt_next hcount hm.below, hm.distinct.grow hadvances.table, ?_⟩
  rcases hm.kept with hi | hnone
  · exact .inl (hspares.terminating hi hstate)
  · exact .inr (hspares.gone hnone)

theorem Doomed.serve (hm : Doomed h i m) (r : ScriptRequest)
    (hcount : m.instances.next.toNat + (m.serve r).handles < UInt32.size) :
    Doomed h i (m.serve r).machine :=
  hm.advance hstate (m.serve_advances r) hcount (serve_spares hm.below r)

theorem Doomed.wake (hm : Doomed h i m) (on : Awaited) : Doomed h i (m.wake on) :=
  hm.advance hstate (m.wake_advances on) m.instances.next.toNat_lt (InstanceTable.spares_wake on)

theorem Doomed.play {s : Session} (hs : Doomed h i s.machine) (k : UInt32) :
    Doomed h i (s.play k).session.machine := by
  by_cases hk : h = k
  · subst hk
    have hadvances := s.play_advances h
    exact ⟨hadvances.lt_next s.machine.instances.next.toNat_lt hs.below,
      hs.distinct.grow hadvances.table, .inr (Session.play_removes hstate hs.kept).2⟩
  · exact hs.advance hstate (s.play_advances k) s.machine.instances.next.toNat_lt
      ((s.play_plays k).spares hk)

/-- While the instance is live every request for its script on the loaded map fails, whatever its
kind, and changes nothing. -/
theorem Doomed.refuses (hm : Doomed h i m) (hi : m.instances.get? h = some i) {r : ScriptRequest}
    (hscript : r.script = i.number) (hhere : m.isElsewhere r.map = false) :
    (∃ cause, (m.serve r).answer = .error cause) ∧ (m.serve r).machine = m := by
  have hfind := hm.distinct.find?_number hi
  rw [← hscript] at hfind
  unfold Machine.serve start suspend terminate
  rw [hhere]
  cases r.kind with
  | execute =>
      simp only [Bool.false_eq_true, if_false, startHere, hfind]
      cases m.image.findScript? r.script with
      | none => exact ⟨⟨_, rfl⟩, rfl⟩
      | some script =>
          simp only [hstate, reduceCtorEq, if_false]
          exact ⟨⟨_, rfl⟩, trivial⟩
  | suspend =>
      simp only [Bool.false_eq_true, if_false, suspendHere, hfind, hstate]
      exact ⟨⟨_, rfl⟩, trivial⟩
  | terminate =>
      simp only [Bool.false_eq_true, if_false, terminateHere, hfind, hstate, if_true]
      exact ⟨⟨_, rfl⟩, trivial⟩

theorem Doomed.tick {s : Session} (hs : Doomed h i s.machine)
    (hcount : s.machine.instances.next.toNat + s.tickHandles < UInt32.size) :
    s.tick.machine.instances.get? h = none := by
  rcases hs.kept with hi | hnone
  · obtain ⟨s', _, hbefore, hlater⟩ := Session.tick_seen hs.below hcount hi
    -- its turn comes while it is still there
    have hi' := hbefore.terminating hi hstate
    exact hlater.gone (Session.play_removes hstate (.inl hi')).2
  · have hnot := (s.machine.instances.not_mem_handles_iff h).2 hnone
    exact (Session.turns_spares hs.below hnot hcount).gone hnone

end

/-- A terminating instance is dead.  Let it be under a handle below the counter, with no other live
instance of its script.  Along every run of requests, notifications and ticks in which the counter
does not start over it is exactly as it was as long as it is live: at the end, before every turn
and before every request.  It never runs a slice: its turn removes it, wakes those that wait for its
script and changes nothing else, and a turn under its handle changes nothing once it is gone.  Every
request for its script on the loaded map fails and changes nothing, and after a tick it is gone. -/
theorem terminating_dead (m : Machine) (h : UInt32) (i : ScriptInstance) (ops : List Operation)
    (hdistinct : m.instances.Distinct) (hfresh : m.instances.Fresh)
    (hi : m.instances.get? h = some i) (hstate : i.state = .terminating)
    (hops : ∀ op ∈ ops, op.Continues) (hcount : m.CountsOn ops) :
    (∀ j, (m.after ops).instances.get? h = some j → j = i) ∧
    (∀ s k, (s, k) ∈ m.turnMoments ops →
      (∀ j, s.machine.instances.get? h = some j → j = i) ∧
      (k = h → s.slicing? h = none ∧ (s.play h).session.machine.instances.get? h = none ∧
        (s.machine.instances.get? h = some i → s.turn h = s.ended h i) ∧
        (s.machine.instances.get? h = none → s.turn h = s))) ∧
    (∀ x ∈ m.servings ops,
      (∀ j, x.machine.instances.get? h = some j → j = i) ∧
      (x.machine.instances.get? h = some i → x.request.script = i.number →
        x.machine.isElsewhere x.request.map = false →
        (∃ cause, (x.machine.serve x.request).answer = .error cause) ∧
          (x.machine.serve x.request).machine = x.machine)) ∧
    ∀ host, .tick host ∈ ops → (m.after ops).instances.get? h = none := by
  have hm : Doomed h i m := ⟨hfresh h i hi, hdistinct, .inl hi⟩
  have hthroughout : ∀ {ops}, (∀ op ∈ ops, op.Continues) → m.CountsOn ops →
      Doomed h i (m.after ops) ∧ (∀ p ∈ m.turnMoments ops, Doomed h i p.1.machine) ∧
        ∀ x ∈ m.servings ops, Doomed h i x.machine := fun hops hcount =>
    holds_throughout (fun _ r hserve hm => hm.serve hstate r hserve)
      (fun _ k hs => hs.play hstate k) (fun _ on hm => hm.wake hstate on) hops hcount hm
  have hsame : ∀ {m : Machine}, Doomed h i m → ∀ j, m.instances.get? h = some j → j = i := by
    intro m hm j hj
    rcases hm.kept with hi | hnone
    · exact Option.some.inj (hj.symm.trans hi)
    · rw [hnone] at hj
      cases hj
  obtain ⟨hend, hturns, hservings⟩ := hthroughout hops hcount
  refine ⟨hsame hend, fun s k hs => ?_, fun x hx => ?_, ?_⟩
  · have hdoomed := hturns (s, k) hs
    refine ⟨hsame hdoomed, fun _ => ?_⟩
    obtain ⟨hidle, hremoved⟩ := Session.play_removes hstate hdoomed.kept
    exact ⟨hidle, hremoved, fun hlive => Session.turn_of_terminating hlive hstate,
      Session.turn_of_none⟩
  · have hdoomed := hservings x hx
    exact ⟨hsame hdoomed, fun hlive => hdoomed.refuses hstate hlive⟩
  intro host htick
  -- up to the tick it is as it was, the tick removes it, and its handle is not given out again
  obtain ⟨before, rest, rfl⟩ := List.append_of_mem htick
  obtain ⟨hbefore, hcount⟩ := countsOn_append.1 hcount
  rw [List.forall_mem_append, List.forall_mem_cons] at hops
  have hdoomed := (hthroughout hops.1 hbefore).1
  have hgone := Doomed.tick hstate (s := { machine := m.after before, host }) hdoomed hcount.1
  have hbelow := (Session.tick_advances { machine := m.after before, host }).lt_next hcount.1
    hdoomed.below
  have hrest := gone_throughout hbelow hgone hops.2.2 hcount.2
  rw [after, List.foldl_append, List.foldl_cons]
  exact hrest.1

/-- The third script of the faulting image, marked to end before its first turn. -/
def markedScript : ScriptInstance :=
  { ScriptInstance.new 2 ⟨3, 19, 0, true⟩ .zero .none with state := .terminating }

def marked : Machine :=
  (new { openScriptDelay := 0 } 0).after [.load 1 Session.faultingImage, .terminate 3 0]

/-- It is started from outside, and in the tick another script asks to suspend it before its turn
comes. -/
theorem terminating_dead_marked :
    let ops : List Operation := [.start 3 0 .zero .none, .tagFinished 9, .tick .new]
    marked.instances.Distinct ∧ marked.instances.Fresh ∧
    marked.instances.get? 3 = some markedScript ∧ marked.CountsOn ops ∧
    (marked.servings ops).map (fun x => (x.request.kind, x.request.script,
      x.machine.instances.get? 3)) = [(.execute, 3, some markedScript),
        (.suspend, 3, some markedScript), (.execute, 2, some markedScript)] ∧
    (∀ x ∈ marked.servings ops, x.machine.instances.get? 3 = some markedScript →
      x.request.script = 3 → x.machine.isElsewhere x.request.map = false →
      ∃ cause, (x.machine.serve x.request).answer = .error cause) ∧
    (∃ s, (s, 3) ∈ marked.turnMoments ops ∧ s.turn 3 = s.ended 3 markedScript) ∧
    (marked.after ops).instances.get? 3 = none := by
  intro ops
  have hdistinct : marked.instances.Distinct := (wellFormed_after_new _ _ _).table.unique
  have hfresh : marked.instances.Fresh := checkNext_eq_ok_iff.1 (by decide +kernel)
  have hscript : marked.instances.get? 3 = some markedScript := by decide +kernel
  have hcount : marked.CountsOn ops := by decide +kernel
  have hops : ∀ op ∈ ops, op.Continues := by simp [ops, Operation.Continues]
  obtain ⟨_, hturns, hservings, htick⟩ :=
    terminating_dead marked 3 markedScript ops hdistinct hfresh hscript rfl hops hcount
  refine ⟨hdistinct, hfresh, hscript, hcount, by decide +kernel, fun x hx hi hnumber hhere => ?_,
    ?_, htick .new (by simp [ops])⟩
  · exact ((hservings x hx).2 hi hnumber hhere).1
  · have hturn : ∃ p ∈ marked.turnMoments ops,
        p.2 = 3 ∧ p.1.machine.instances.get? 3 = some markedScript := by decide +kernel
    obtain ⟨⟨s, _⟩, hs, rfl, hlive⟩ := hturn
    exact ⟨s, hs, ((hturns s 3 hs).2 rfl).2.2.1 hlive⟩

end Machine

end MapScript
