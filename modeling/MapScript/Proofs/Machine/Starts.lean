import MapScript.Proofs.Machine.Runs

/-!
# Starts

A start that succeeds puts its instance under the next handle.  As long as the counter of handles
has not started over, that handle is above every live one, so no live instance is lost; once it has,
a start can take the place of a live instance.
-/

namespace MapScript

namespace InstanceTable

/-- The later table has one more instance, of the given script, under a handle above every live
one, and every instance of the earlier table as it was. -/
def GainsOne (t t' : InstanceTable) (number : Int32) : Prop :=
  ∃ h i, i.number = number ∧ t.get? h = none ∧ (∀ k j, t.get? k = some j → k < h) ∧
    t'.get? h = some i ∧ (∀ k j, t.get? k = some j → t'.get? k = some j) ∧
    t'.size = t.size + 1

theorem Fresh.get?_next {t : InstanceTable} (ht : t.Fresh) : t.get? t.next = none := by
  cases hget : t.get? t.next with
  | none => rfl
  | some i => exact absurd (ht t.next i hget) (UInt32.lt_irrefl t.next)

theorem toNat_next_insert {t : InstanceTable} (hcount : t.next.toNat + 1 < UInt32.size)
    (i : ScriptInstance) : (t.insert i).next.toNat = t.next.toNat + 1 := by
  rw [next_insert, UInt32.toNat_add]
  exact Nat.mod_eq_of_lt hcount

theorem Fresh.insert {t : InstanceTable} (ht : t.Fresh)
    (hcount : t.next.toNat + 1 < UInt32.size) (i : ScriptInstance) : (t.insert i).Fresh := by
  intro k j hj
  rw [UInt32.lt_iff_toNat_lt, toNat_next_insert hcount]
  rw [get?_insert] at hj
  split at hj
  · rename_i hk
    rw [hk]
    exact Nat.lt_succ_self _
  · exact Nat.lt_succ_of_lt (UInt32.lt_iff_toNat_lt.1 (ht k j hj))

/-- What is live stays as it is when a fresh instance comes. -/
theorem Fresh.get?_insert_of_some {t : InstanceTable} (ht : t.Fresh) {k : UInt32}
    {j : ScriptInstance} (hj : t.get? k = some j) (i : ScriptInstance) :
    (t.insert i).get? k = some j := by
  rw [get?_insert, if_neg (UInt32.ne_of_lt (ht k j hj)), hj]

theorem Fresh.size_insert {t : InstanceTable} (ht : t.Fresh) (i : ScriptInstance) :
    (t.insert i).size = t.size + 1 := by
  have hentries : (t.insert i).records.entries = t.records.entries ++ [(t.next, i)] := by
    apply t.records.entries_insert_of_lt
    intro e he
    exact ht e.1 e.2 ((t.records.get?_eq_some_iff e.1 e.2).2 he)
  rw [size, HandleMap.size, hentries, List.length_append]
  rfl

theorem Fresh.gainsOne_insert {t : InstanceTable} (ht : t.Fresh) (i : ScriptInstance) :
    t.GainsOne (t.insert i) i.number := by
  refine ⟨t.next, i, rfl, ht.get?_next, ht, ?_, fun k j hj => ht.get?_insert_of_some hj i,
    ht.size_insert i⟩
  rw [get?_insert, if_pos rfl]

end InstanceTable

namespace Machine

variable {m : Machine} {number map : Int32} {args : SpecialArgs} {trigger : Trigger}

/-- A start makes an instance only of a declared script that has none. -/
theorem startHere_eq_started (h : (m.startHere number args trigger).answer = .ok .started) :
    ∃ definition info, m.image.findScript? number = some (definition, info) ∧
      m.instances.find? number = none ∧ (m.startHere number args trigger).machine =
        { m with instances := m.instances.insert (.new definition info args trigger) } := by
  unfold startHere at h ⊢
  split at h
  · cases h
  · rename_i definition info hscript
    split at h
    · rename_i hfind
      exact ⟨definition, info, hscript, hfind, rfl⟩
    · split at h <;> cases h

/-- A start succeeds only for a declared script of the loaded map. -/
theorem start_eq_started (h : (m.start number map args trigger).answer = .ok .started) :
    m.isElsewhere map = false ∧ ∃ definition info,
      m.image.findScript? number = some (definition, info) ∧
      (m.start number map args trigger).machine.instances =
        m.instances.insert (.new definition info args trigger) := by
  unfold start at h ⊢
  split at h
  · cases h
  · rename_i hhere
    rw [if_neg hhere]
    refine ⟨Bool.eq_false_iff.2 hhere, ?_⟩
    obtain ⟨definition, info, hscript, _, hmachine⟩ := startHere_eq_started h
    exact ⟨definition, info, hscript, by rw [hmachine]⟩

theorem suspend_ne_started (m : Machine) (number map : Int32) :
    (m.suspend number map).answer ≠ .ok .started := by
  unfold suspend suspendHere
  split
  · exact nofun
  · split
    · exact nofun
    · split <;> exact nofun

theorem terminate_ne_started (m : Machine) (number map : Int32) :
    (m.terminate number map).answer ≠ .ok .started := by
  unfold terminate terminateHere
  split
  · exact nofun
  · split
    · exact nofun
    · split <;> exact nofun

theorem serve_eq_started {r : ScriptRequest} (h : (m.serve r).answer = .ok .started) :
    r.kind = .execute ∧ m.isElsewhere r.map = false ∧ ∃ definition info,
      m.image.findScript? r.script = some (definition, info) ∧
      (m.serve r).machine.instances =
        m.instances.insert (.new definition info r.args r.trigger) := by
  unfold serve at h ⊢
  cases hkind : r.kind with
  | execute =>
      rw [hkind] at h
      exact ⟨rfl, start_eq_started h⟩
  | suspend =>
      rw [hkind] at h
      exact absurd h (m.suspend_ne_started r.script r.map)
  | terminate =>
      rw [hkind] at h
      exact absurd h (m.terminate_ne_started r.script r.map)

theorem start_gainsOne (hfresh : m.instances.Fresh)
    (h : (m.start number map args trigger).answer = .ok .started) :
    m.instances.GainsOne (m.start number map args trigger).machine.instances number := by
  obtain ⟨_, definition, info, hscript, hinsert⟩ := start_eq_started h
  obtain ⟨_, rfl⟩ := Image.findScript?_eq_some hscript
  rw [hinsert]
  exact hfresh.gainsOne_insert (.new definition info args trigger)

theorem serve_gainsOne {r : ScriptRequest} (hfresh : m.instances.Fresh)
    (h : (m.serve r).answer = .ok .started) :
    m.instances.GainsOne (m.serve r).machine.instances r.script := by
  obtain ⟨_, _, definition, info, hscript, hinsert⟩ := serve_eq_started h
  have hnumber : info.number = r.script := (Image.findScript?_eq_some hscript).2
  rw [hinsert, ← hnumber]
  exact hfresh.gainsOne_insert (.new definition info r.args r.trigger)

end Machine

/-! ## In the middle of a tick -/

namespace Session

theorem turnsHandles_append (s : Session) (played rest : List UInt32) :
    s.turnsHandles (played ++ rest) =
      s.turnsHandles played + (played.foldl turn s).turnsHandles rest := by
  induction played generalizing s with
  | nil => exact (Nat.zero_add _).symm
  | cons h played ih =>
      rw [List.cons_append, turnsHandles, turnsHandles, ih, List.foldl_cons, Nat.add_assoc]

theorem requestHandles_append (s : Session) (served rest : List ScriptRequest) :
    s.requestHandles (served ++ rest) =
      s.requestHandles served + (served.foldl serve s).requestHandles rest := by
  induction served generalizing s with
  | nil => exact (Nat.zero_add _).symm
  | cons r served ih =>
      rw [List.cons_append, requestHandles, requestHandles, ih, List.foldl_cons, Nat.add_assoc]

/-- The counter is still above every live handle when a request of a tick is served. -/
theorem fresh_serving {s : Session} {played rest : List UInt32} {h : UInt32}
    {served unserved : List ScriptRequest} (hfresh : s.machine.instances.Fresh)
    (hcount : s.machine.instances.next.toNat + s.tickHandles < UInt32.size)
    (hplayed : s.machine.instances.handles = played ++ h :: rest)
    (hserved : ((played.foldl turn s).play h).requests = served ++ unserved) :
    (served.foldl serve ((played.foldl turn s).play h).session).machine.instances.Fresh := by
  have hadvances := ((s.turns_advances played).trans ((played.foldl turn s).play_advances h)).trans
    (((played.foldl turn s).play h).session.serveAll_advances served)
  apply hfresh.grow hadvances.table
  -- the handles taken so far are some of those that the whole tick takes
  rw [tickHandles, hplayed, turnsHandles_append, turnsHandles, turnHandles, hserved,
    requestHandles_append] at hcount
  omega

end Session

namespace Machine

/-- As long as the counter of handles has not started over, a start that succeeds adds exactly one
instance, under a handle that was not live and is above every live one, and leaves every live
instance as it was.  So it is for a start from outside and for one that a script asks for in a
tick. -/
theorem start_keeps_live (config : Config) (entropy : Generator) (ops : List Operation)
    (hcount : (new config entropy).CountsOn ops) :
    let m := (new config entropy).after ops
    (∀ number map args trigger, (m.start number map args trigger).answer = .ok .started →
      m.instances.GainsOne (m.start number map args trigger).machine.instances number) ∧
    ∀ host played h rest served r unserved, m.CountsOn [.tick host] →
      m.instances.handles = played ++ h :: rest →
      let p := (played.foldl Session.turn { machine := m, host }).play h
      p.requests = served ++ r :: unserved →
      let s := served.foldl Session.serve p.session
      (s.machine.serve r).answer = .ok .started →
        s.machine.instances.GainsOne (s.machine.serve r).machine.instances r.script := by
  intro m
  have hfresh : m.instances.Fresh := fresh_after (fresh_of_get?_eq_none fun _ => rfl) hcount
  constructor
  · intro number map args trigger hstarted
    exact start_gainsOne hfresh hstarted
  · intro host played h rest served r unserved htick hplayed p hserved s hstarted
    have hs : s.machine.instances.Fresh :=
      Session.fresh_serving hfresh htick.1 hplayed hserved
    exact serve_gainsOne hs hstarted

/-- An image of four scripts that suspend themselves and then end. -/
def idleImage : List UInt8 :=
  Word.join [0x534341, 16, 2, 1, 4, 1, 8, 0, 2, 8, 0, 3, 8, 0, 4, 8, 0, 0]

/-- A snapshot with the first script live under the first handle and the counter anywhere. -/
def idleSnapshot (next : UInt32) : Snapshot where
  map := 1
  worldVars := .zero
  mapVars := .zero
  instances := ⟨next, HandleMap.empty.insert 1 (.new 0 ⟨1, 2, 0, false⟩ .zero .none)⟩
  deferred := .empty

/-- A start that takes the last handle there is. -/
theorem start_keeps_live_last_handle :
    let ops : List Operation :=
      [.restore idleImage (idleSnapshot 4294967294), .start 2 0 .zero .none]
    let m := (new {} 0).after ops
    (new {} 0).CountsOn ops ∧ m.instances.handles = [1, 4294967294] ∧
      (m.start 3 0 .zero .none).answer = .ok .started ∧
      m.instances.GainsOne (m.start 3 0 .zero .none).machine.instances 3 := by
  intro ops m
  have hcount : (new {} 0).CountsOn ops := by decide +kernel
  have hstarted : (m.start 3 0 .zero .none).answer = .ok .started := by decide +kernel
  exact ⟨hcount, by decide +kernel, hstarted,
    (start_keeps_live {} 0 ops hcount).1 3 0 .zero .none hstarted⟩

/-- Once the counter has started over, a start takes the place of a live instance. -/
theorem start_replaces_live :
    let m := (new {} 0).after [.restore idleImage (idleSnapshot 4294967295),
      .start 2 0 .zero .none, .start 3 0 .zero .none]
    (m.start 4 0 .zero .none).answer = .ok .started ∧ m.status 1 = .running ∧
      (m.start 4 0 .zero .none).machine.status 1 = .stopped ∧
      ¬ m.instances.GainsOne (m.start 4 0 .zero .none).machine.instances 4 := by
  intro m
  refine ⟨by decide +kernel, by decide +kernel, by decide +kernel, ?_⟩
  rintro ⟨h, i, _, _, _, _, hkept, _⟩
  have hbefore : m.instances.get? 1 = some (.new 0 ⟨1, 2, 0, false⟩ .zero .none) := by
    decide +kernel
  have hafter : (m.start 4 0 .zero .none).machine.instances.get? 1 =
      some (.new 3 ⟨4, 2, 0, false⟩ .zero .none) := by
    decide +kernel
  have hsame := hkept 1 _ hbefore
  rw [hafter] at hsame
  exact absurd hsame (by decide)

end Machine

end MapScript
