import MapScript.Proofs.Machine.Moments

/-!
# Instances whose turn it is not

Requests, notifications and the turns of others change at most the state of an instance, and not
freely: one that is terminating stays so, and none begins to wait.  Nor does an instance appear
under a handle that has been given out.  A tick seen from one instance is then the turns before its
own, its own, and the turns after it: `tick_seen`.
-/

namespace MapScript

namespace ScriptState

/-- The second state can come from the first without a turn. -/
structure Sways (a b : ScriptState) : Prop where
  terminating : a = .terminating → b = .terminating
  waiting : ∀ on, b = .waiting on → a = .waiting on

theorem Sways.refl (a : ScriptState) : a.Sways a := ⟨id, fun _ => id⟩

theorem Sways.trans {a b c : ScriptState} (h : a.Sways b) (h' : b.Sways c) : a.Sways c :=
  ⟨fun ha => h'.terminating (h.terminating ha), fun on hc => h.waiting on (h'.waiting on hc)⟩

theorem sways_running {on : Awaited} : (ScriptState.waiting on).Sways .running :=
  ⟨nofun, nofun⟩

theorem sways_afterRequests (a : ScriptState) (requests : List ScriptRequest) :
    a.Sways (a.afterRequests requests) := by
  constructor
  · rintro rfl
    induction requests with
    | nil => rfl
    | cons r rest ih =>
        rw [afterRequests, List.foldl_cons]
        cases r.kind <;> exact ih
  · intro on
    exact eq_waiting_of_afterRequests

end ScriptState

namespace InstanceTable

/-- Under the handle the later table has the instance of the earlier one, its state apart, or
nothing where there was nothing. -/
structure Spares (t : InstanceTable) (k : UInt32) (t' : InstanceTable) : Prop where
  live : ∀ i, t.get? k = some i →
    ∃ state, i.state.Sways state ∧ t'.get? k = some { i with state }
  gone : t.get? k = none → t'.get? k = none

variable {t t' t'' : InstanceTable} {h k : UInt32}

theorem Spares.refl (t : InstanceTable) (k : UInt32) : t.Spares k t :=
  ⟨fun i hi => ⟨i.state, .refl i.state, hi⟩, id⟩

theorem Spares.trans (h : t.Spares k t') (h' : t'.Spares k t'') : t.Spares k t'' := by
  refine ⟨fun i hi => ?_, fun hnone => h'.gone (h.gone hnone)⟩
  obtain ⟨state, hsways, hi'⟩ := h.live i hi
  obtain ⟨state', hsways', hi''⟩ := h'.live _ hi'
  exact ⟨state', hsways.trans hsways', hi''⟩

/-- A terminating instance is left exactly as it is. -/
theorem Spares.terminating (h : t.Spares k t') {i : ScriptInstance} (hi : t.get? k = some i)
    (hstate : i.state = .terminating) : t'.get? k = some i := by
  obtain ⟨state, hsways, hi'⟩ := h.live i hi
  rw [hi', hsways.terminating hstate, ← hstate]

theorem spares_wake (on : Awaited) : t.Spares k (t.wake on) := by
  constructor
  · intro i hi
    rw [get?_wake, hi, Option.map_some]
    by_cases hstate : i.state = .waiting on
    · rw [if_pos hstate, hstate]
      exact ⟨.running, ScriptState.sways_running, rfl⟩
    · rw [if_neg hstate]
      exact ⟨i.state, .refl i.state, rfl⟩
  · intro hnone
    rw [get?_wake, hnone, Option.map_none]

theorem Plays.spares (hplays : t.Plays h t') (hk : k ≠ h) : t.Spares k t' := by
  constructor
  · intro i hi
    rcases hplays.get?_of_ne hk hi with hsame | ⟨j, _, _, hstate, hwoken⟩
    · exact ⟨i.state, .refl i.state, hsame⟩
    · rw [hstate]
      exact ⟨.running, ScriptState.sways_running, hwoken⟩
  · intro hnone
    cases hplays with
    | absent => exact hnone
    | lives hj hnumber => rw [get?_modify, if_neg hk, hnone]
    | ends hj => rw [get?_wake, get?_remove, if_neg hk, hnone, Option.map_none]

end InstanceTable

namespace Session

variable {s : Session} {k : UInt32} (hlt : k < s.machine.instances.next)
include hlt

theorem serveAll_spares {requests : List ScriptRequest}
    (hcount : s.machine.instances.next.toNat + s.requestHandles requests < UInt32.size) :
    s.machine.instances.Spares k (requests.foldl serve s).machine.instances := by
  refine ⟨fun i hi => ?_, get?_serveAll_eq_none hlt hcount⟩
  exact ⟨_, i.state.sways_afterRequests _, get?_serveAll hlt hcount hi⟩

/-- After the part of the instance whose turn it is, everyone is spared. -/
theorem turn_spares_play {h : UInt32}
    (hcount : s.machine.instances.next.toNat + s.turnHandles h < UInt32.size) :
    (s.play h).session.machine.instances.Spares k (s.turn h).machine.instances := by
  rw [← (s.play_plays h).next] at hlt hcount
  exact serveAll_spares hlt hcount

theorem turns_spares {handles : List UInt32} (hk : k ∉ handles)
    (hcount : s.machine.instances.next.toNat + s.turnsHandles handles < UInt32.size) :
    s.machine.instances.Spares k (handles.foldl turn s).machine.instances := by
  induction handles generalizing s with
  | nil => exact .refl s.machine.instances k
  | cons h rest ih =>
      rw [List.mem_cons, not_or] at hk
      obtain ⟨hfirst, hrest⟩ := (s.turn_advances h).counts hcount
      have hplay := (s.play_plays h).spares hk.1
      have hturn := hplay.trans (turn_spares_play hlt hfirst)
      exact hturn.trans (ih ((s.turn_advances h).lt_next hfirst hlt) hk.2 hrest)

/-- A tick seen from a live instance.  It has exactly one turn, at the session `s'`, before which
and after which it is spared. -/
theorem tick_seen (hcount : s.machine.instances.next.toNat + s.tickHandles < UInt32.size)
    {i : ScriptInstance} (hi : s.machine.instances.get? k = some i) :
    ∃ s' : Session,
      (∀ x, (x, k) ∈ s.turnMoments s.machine.instances.handles ↔ x = s') ∧
      s.machine.instances.Spares k s'.machine.instances ∧
      (s'.play k).session.machine.instances.Spares k s.tick.machine.instances := by
  have hmem : k ∈ s.machine.instances.handles := (InstanceTable.mem_handles_iff _ k).2 ⟨i, hi⟩
  obtain ⟨before, rest, hsplit⟩ := List.append_of_mem hmem
  have hnodup := s.machine.instances.nodup_handles
  rw [hsplit, List.nodup_append, List.nodup_cons] at hnodup
  have hbefore : k ∉ before := fun hk => hnodup.2.2 k hk k List.mem_cons_self rfl
  have hrest : k ∉ rest := hnodup.2.1.1
  refine ⟨before.foldl turn s, fun x => ?_, ?_, ?_⟩
  · rw [mem_turnMoments, hsplit]
    constructor
    · -- the handle stands at one place only
      rintro ⟨played, rest', hsplit', rfl⟩
      rw [((List.append_cons_inj_of_notMem hbefore hrest).1 hsplit').1]
    · rintro rfl
      exact ⟨before, rest, rfl, rfl⟩
  · rw [tickHandles, hsplit, turnsHandles_append] at hcount
    exact turns_spares hlt hbefore (by omega)
  · rw [tickHandles, hsplit, turnsHandles_append] at hcount
    obtain ⟨hfirst, hcount⟩ := (s.turns_advances before).counts hcount
    have hlt' := (s.turns_advances before).lt_next hfirst hlt
    obtain ⟨hturn, hcount⟩ := ((before.foldl turn s).turn_advances k).counts hcount
    have hlt'' := ((before.foldl turn s).turn_advances k).lt_next hturn hlt'
    have hown := turn_spares_play hlt' hturn
    have hlater := turns_spares hlt'' hrest hcount
    rw [tick, hsplit, List.foldl_append, List.foldl_cons]
    exact hown.trans hlater

end Session

namespace Machine

variable {m : Machine} {k : UInt32}

theorem serve_spares (hlt : k < m.instances.next) (r : ScriptRequest) :
    m.instances.Spares k (m.serve r).machine.instances := by
  refine ⟨fun i hi => ⟨_, ?_, (m.serve_serves r).get? hlt hi⟩,
    (m.serve_serves r).get?_eq_none hlt⟩
  split
  · exact i.state.sways_afterRequests [r]
  · exact .refl i.state

/-- Between ticks everyone is spared. -/
theorem perform_spares (hlt : k < m.instances.next) {op : Operation} (hop : op.Continues)
    (htick : ∀ host, op ≠ .tick host) :
    m.instances.Spares k (m.perform op).machine.instances := by
  cases op with
  | start number map args trigger => exact serve_spares hlt ⟨.execute, number, map, args, trigger⟩
  | suspend number map => exact serve_spares hlt ⟨.suspend, number, map, .zero, .none⟩
  | terminate number map => exact serve_spares hlt ⟨.terminate, number, map, .zero, .none⟩
  | tick host => exact absurd rfl (htick host)
  | tagFinished tag => exact InstanceTable.spares_wake (.tag tag)
  | polyFinished poly => exact InstanceTable.spares_wake (.poly poly)
  | load map bytes => exact hop.elim
  | newGame => exact hop.elim
  | restore bytes s => exact hop.elim

/-- The handle has been given out and is free. -/
def Vacant (k : UInt32) (m : Machine) : Prop :=
  k < m.instances.next ∧ m.instances.get? k = none

theorem Vacant.serve (hm : m.Vacant k) {r : ScriptRequest}
    (hcount : m.instances.next.toNat + (m.serve r).handles < UInt32.size) :
    (m.serve r).machine.Vacant k :=
  ⟨(m.serve_advances r).lt_next hcount hm.1, (serve_spares hm.1 r).gone hm.2⟩

theorem Vacant.play {s : Session} (hs : s.machine.Vacant k) (h : UInt32) :
    (s.play h).session.machine.Vacant k := by
  refine ⟨?_, ?_⟩
  · rw [(s.play_plays h).next]
    exact hs.1
  · by_cases hk : k = h
    · rw [← hk, Session.play_of_none hs.2]
      exact hs.2
    · exact ((s.play_plays h).spares hk).gone hs.2

/-- A handle that has been given out and is free stays free. -/
theorem gone_throughout {ops : List Operation} (hlt : k < m.instances.next)
    (hnone : m.instances.get? k = none) (hops : ∀ op ∈ ops, op.Continues)
    (hcount : m.CountsOn ops) :
    (m.after ops).instances.get? k = none ∧
      ∀ p ∈ m.turnMoments ops, p.1.machine.instances.get? k = none := by
  have hserve : ∀ m r, m.instances.next.toNat + (m.serve r).handles < UInt32.size →
      Vacant k m → Vacant k (m.serve r).machine :=
    fun _ _ hcount hm => hm.serve hcount
  have hplay : ∀ (s : Session) h, Vacant k s.machine → Vacant k (s.play h).session.machine :=
    fun _ h hs => hs.play h
  have hwake : ∀ m on, Vacant k m → Vacant k (m.wake on) :=
    fun _ on hm => ⟨hm.1, (InstanceTable.spares_wake on).gone hm.2⟩
  obtain ⟨hend, hturns, _⟩ := holds_throughout hserve hplay hwake hops hcount ⟨hlt, hnone⟩
  exact ⟨hend.2, fun p hp => (hturns p hp).2⟩

end Machine

end MapScript
