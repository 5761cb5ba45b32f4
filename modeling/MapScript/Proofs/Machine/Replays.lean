import MapScript.Proofs.Machine.Lifecycle
import MapScript.Proofs.Machine.Transparency

/-!
# Serving what was waiting

The actions that wait for a map are served when it is entered, after its open scripts have been
scheduled.  Each is served as a request would be, but that a script it starts is delayed:
`replay_eq_issue`.  The open scripts are all live by then, so that what is started is none of them,
and its handle is above theirs.
-/

namespace MapScript

namespace InstanceTable

variable {t : InstanceTable} {i : ScriptInstance}

/-- Gives every instance of a script a delay. -/
def delayAll (t : InstanceTable) (number : Int32) (delay : UInt32) : InstanceTable :=
  { t with records := t.records.mapValues fun _ i =>
      if i.number = number then { i with delay } else i }

theorem get?_delayAll (t : InstanceTable) (number : Int32) (delay k : UInt32) :
    (t.delayAll number delay).get? k =
      (t.get? k).map fun i => if i.number = number then { i with delay } else i :=
  t.records.get?_mapValues _ k

/-- Puts instances of open scripts into the table in order, with the given delay. -/
def openAll (t : InstanceTable) (delay : UInt32) (scripts : List (ScriptInfo × Nat)) :
    InstanceTable :=
  scripts.foldl (fun t script =>
    t.insert { ScriptInstance.new script.2 script.1 .zero .none with delay }) t

/-- A fresh instance can as well be changed before it is put into the table. -/
theorem modify_insert (t : InstanceTable) (i : ScriptInstance)
    (f : ScriptInstance → ScriptInstance) :
    (t.insert i).modify t.next f = t.insert (f i) := by
  refine ext_get? rfl fun k => ?_
  rw [get?_modify, get?_insert, get?_insert]
  split <;> rfl

section

variable (hfree : ∀ k j, t.get? k = some j → j.number ≠ i.number)
include hfree

theorem findHandle?_insert_self : (t.insert i).findHandle? i.number = some t.next := by
  rw [findHandle?_eq_some_iff]
  refine ⟨⟨i, by rw [get?_insert, if_pos rfl], rfl⟩, fun k j hj hnumber => ?_⟩
  rw [get?_insert] at hj
  split at hj
  · rename_i hk
    rw [hk]
    exact UInt32.le_refl _
  · exact absurd hnumber (hfree k j hj)

theorem delayAll_insert (delay : UInt32) :
    (t.insert i).delayAll i.number delay = t.insert { i with delay } := by
  refine ext_get? rfl fun k => ?_
  rw [get?_delayAll, get?_insert, get?_insert]
  split
  · rw [Option.map_some, if_pos rfl]
  · cases hj : t.get? k with
    | none => rfl
    | some j => rw [Option.map_some, if_neg (hfree k j hj)]

end

end InstanceTable

/-- The request that an action waits to make. -/
def DeferredAction.request (action : DeferredAction) : ScriptRequest :=
  ⟨action.kind, action.script, action.map, action.args, .none⟩

namespace Machine

/-- Makes the request of an action and delays the script if that has started it. -/
def issue (m : Machine) (action : DeferredAction) : Machine :=
  let reply := m.serve action.request
  if reply.answer = .ok .started then
    { reply.machine with
      instances := reply.machine.instances.delayAll action.script m.config.deferredStartDelay }
  else reply.machine

variable {m : Machine} {action : DeferredAction}

/-! ## One action -/

theorem replay_of_ne_started (h : (m.replayReply action).answer ≠ .ok .started) :
    (m.replay action).machine = (m.replayReply action).machine := by
  unfold replay
  simp only
  split
  · rfl
  · rename_i hstarted
    exact absurd hstarted h
  · rfl

section

variable (hmap : action.map = m.map)
include hmap

theorem serve_request : m.serve action.request = m.replayReply action := by
  have hhere : m.isElsewhere action.map = false :=
    (m.isElsewhere_eq_false_iff action.map).2 (.inr hmap)
  simp only [serve, start, suspend, terminate, DeferredAction.request, hhere]
  cases hkind : action.kind <;> simp only [replayReply, hkind] <;> rfl

/-- An action makes an instance only of a declared script that has none, and the delay goes to that
instance. -/
theorem replay_of_started (hstarted : (m.replayReply action).answer = .ok .started) :
    ∃ definition info, m.image.findScript? action.script = some (definition, info) ∧
      m.Absent action.script ∧
      (m.replayReply action).machine =
        { m with instances := m.instances.insert (.new definition info action.args .none) } ∧
      (m.replay action).machine = { m with
        instances := m.instances.insert { ScriptInstance.new definition info action.args .none with
          delay := m.config.deferredStartDelay } } := by
  have hkind : action.kind = .execute := by
    rw [← serve_request hmap] at hstarted
    exact (serve_eq_started hstarted).1
  have hreply : m.replayReply action = m.startHere action.script action.args .none := by
    rw [replayReply, hkind]
  obtain ⟨definition, info, hscript, hfind, hmachine⟩ := startHere_eq_started (hreply ▸ hstarted)
  rw [← hreply] at hmachine
  have habsent : m.Absent action.script := InstanceTable.find?_eq_none_iff.1 hfind
  have hhandle : (m.instances.insert (.new definition info action.args .none)).findHandle?
      action.script = some m.instances.next := by
    rw [← (Image.findScript?_eq_some hscript).2] at habsent ⊢
    exact InstanceTable.findHandle?_insert_self habsent
  refine ⟨definition, info, hscript, habsent, hmachine, ?_⟩
  simp only [replay, hstarted, hmachine, hhandle, InstanceTable.modify_insert]

/-- A waiting action for the loaded map is served as a request of its kind is, with the delay set
after a start. -/
theorem replay_eq_issue : (m.replay action).machine = m.issue action := by
  simp only [issue, serve_request hmap]
  split
  · rename_i hstarted
    obtain ⟨definition, info, hscript, habsent, hmachine, hreplay⟩ :=
      replay_of_started hmap hstarted
    have hnumber : info.number = action.script := (Image.findScript?_eq_some hscript).2
    rw [hreplay, hmachine, ← hnumber]
    rw [← hnumber] at habsent
    have hdelay := InstanceTable.delayAll_insert (i := .new definition info action.args .none)
      habsent m.config.deferredStartDelay
    exact congrArg (fun instances => { m with instances }) hdelay.symm
  · rename_i hstarted
    exact replay_of_ne_started hstarted

end

theorem replays_eq_issues {actions : List DeferredAction} (hmap : ∀ a ∈ actions, a.map = m.map) :
    actions.foldl (fun m action => (m.replay action).machine) m = actions.foldl issue m := by
  induction actions generalizing m with
  | nil => rfl
  | cons action rest ih =>
      rw [List.forall_mem_cons] at hmap
      have hrest : ∀ a ∈ rest, a.map = (m.replay action).machine.map := by
        rw [(m.replay_advances action).map]
        exact hmap.2
      rw [List.foldl_cons, List.foldl_cons, ih hrest, replay_eq_issue hmap.1]

/-! ## The whole load -/

theorem machine_scheduleAll (m : Machine) :
    m.scheduleAll.machine = { m with
      instances := m.instances.openAll m.config.openScriptDelay (openScripts m.image) } := by
  have hfold : ∀ (scripts : List (ScriptInfo × Nat)) (t : InstanceTable),
      scripts.foldl (fun m script => (m.schedule script.2 script.1).machine)
          { m with instances := t } =
        { m with instances := t.openAll m.config.openScriptDelay scripts } := by
    intro scripts
    induction scripts with
    | nil => exact fun t => rfl
    | cons script scripts ih => exact fun t => ih _
  rw [scheduleAll, Report.machine_foldl_andThen]
  exact hfold (openScripts m.image) m.instances

/-- The machine when a map is entered, its open scripts are scheduled and the actions that wait for
it are taken out but not yet served. -/
def opened (m : Machine) (map : Int32) (image : Image) : Machine :=
  { m.reset map image with
    instances := m.instances.clear.openAll m.config.openScriptDelay (openScripts image)
    deferred := m.deferred.without map }

theorem machine_enter (m : Machine) (map : Int32) (image : Image) :
    (m.enter map image).machine = (m.deferred.forMap map).foldl
      (fun m action => (m.replay action).machine) (m.opened map image) := by
  calc (m.enter map image).machine
      = (m.reset map image).scheduleAll.machine.replayAll.machine := rfl
    _ = _ := by
      rw [machine_scheduleAll, replayAll, Report.machine_foldl_andThen]
      rfl

end Machine

namespace DeferredQueue

theorem map_of_mem_forMap {q : DeferredQueue} {map : Int32} : ∀ a ∈ q.forMap map, a.map = map := by
  intro a ha
  simpa using (List.mem_filter.1 ha).2

theorem forMap_without (q : DeferredQueue) (map : Int32) : (q.without map).forMap map = [] := by
  simp [without, forMap]

theorem without_without (q : DeferredQueue) (map : Int32) :
    (q.without map).without map = q.without map := by
  simp [without]

end DeferredQueue

namespace Machine

/-- With nothing waiting for the map, its open scripts are all there is. -/
theorem machine_enter_without (m : Machine) (map : Int32) (image : Image) :
    (enter { m with deferred := m.deferred.without map } map image).machine =
      m.opened map image := by
  rw [machine_enter, DeferredQueue.forMap_without, List.foldl_nil]
  simp only [opened, DeferredQueue.without_without]
  rfl

end Machine

/-! ## Open scripts first -/

/-- The image declares the script, as an open one. -/
def Image.Opens (image : Image) (number : Int32) : Prop :=
  ∃ info ∈ image.scripts, info.number = number ∧ info.isOpen = true

namespace InstanceTable

variable {t : InstanceTable} {image : Image} {delay : UInt32} {script : ScriptInfo × Nat}
  {rest : List (ScriptInfo × Nat)}

/-- Only open scripts are live, with their delay, and of the open scripts all are but those that are
left to schedule. -/
structure Opening (image : Image) (delay : UInt32) (rest : List (ScriptInfo × Nat))
    (t : InstanceTable) : Prop where
  fresh : t.Fresh
  scheduled : ∀ h i, t.get? h = some i → image.Opens i.number ∧ i.delay = delay
  live : ∀ number, image.Opens number →
    (∃ script ∈ rest, script.1.number = number) ∨ ∃ h i, t.get? h = some i ∧ i.number = number

theorem Opening.schedule (ht : t.Opening image delay (script :: rest))
    (hopens : image.Opens script.1.number) (hcount : t.next.toNat + 1 < UInt32.size) :
    Opening image delay rest
      (t.insert { ScriptInstance.new script.2 script.1 .zero .none with delay }) := by
  refine ⟨ht.fresh.insert hcount _, fun h i hi => ?_, fun number hnumber => ?_⟩
  · rw [get?_insert] at hi
    split at hi
    · cases hi
      exact ⟨hopens, rfl⟩
    · exact ht.scheduled h i hi
  · rcases ht.live number hnumber with ⟨other, hother, rfl⟩ | ⟨h, i, hi, hnumber⟩
    · rcases List.mem_cons.1 hother with rfl | hother
      · exact .inr ⟨t.next, _, by rw [get?_insert, if_pos rfl], rfl⟩
      · exact .inl ⟨other, hother, rfl⟩
    · exact .inr ⟨h, i, ht.fresh.get?_insert_of_some hi _, hnumber⟩

theorem Opening.openAll (ht : t.Opening image delay rest)
    (hopens : ∀ script ∈ rest, image.Opens script.1.number)
    (hcount : t.next.toNat + rest.length < UInt32.size) :
    Opening image delay [] (t.openAll delay rest) := by
  induction rest generalizing t with
  | nil => exact ht
  | cons script rest ih =>
      rw [List.forall_mem_cons] at hopens
      rw [List.length_cons] at hcount
      have hfirst : t.next.toNat + 1 < UInt32.size := by omega
      refine ih (ht.schedule hopens.1 hfirst) hopens.2 ?_
      rw [toNat_next_insert hfirst]
      omega

end InstanceTable

namespace Machine

/-- How a map begins: its open scripts are live with their delay, whatever else is live has the
delay of a start that was waiting, and the handles of the open scripts come first. -/
structure Arranged (m : Machine) : Prop where
  fresh : m.instances.Fresh
  live : ∀ number, m.image.Opens number → ∃ h i, m.instances.get? h = some i ∧ i.number = number
  openDelay : ∀ h i, m.instances.get? h = some i → m.image.Opens i.number →
    i.delay = m.config.openScriptDelay
  otherDelay : ∀ h i, m.instances.get? h = some i → ¬ m.image.Opens i.number →
    i.delay = m.config.deferredStartDelay
  order : ∀ h h' i i', m.instances.get? h = some i → m.instances.get? h' = some i' →
    m.image.Opens i.number → ¬ m.image.Opens i'.number → h < h'

theorem opened_arranged (m : Machine) (map : Int32) {image : Image}
    (hcount : m.instances.next.toNat + (openScripts image).length < UInt32.size) :
    (m.opened map image).Arranged := by
  have hnone : ∀ k, (m.reset map image).instances.get? k = none := fun _ => rfl
  have hstart : (m.reset map image).instances.Opening image m.config.openScriptDelay
      (openScripts image) := by
    refine ⟨fresh_of_get?_eq_none hnone, fun h i hi => ?_, ?_⟩
    · rw [hnone h] at hi
      cases hi
    · rintro number ⟨info, hinfo, rfl, hopen⟩
      obtain ⟨definition, hdefinition⟩ := List.getElem?_of_mem hinfo
      exact .inl ⟨(info, definition), mem_openScripts.2 ⟨hdefinition, hopen⟩, rfl⟩
  have hopens : ∀ script ∈ openScripts image, image.Opens script.1.number := by
    intro script hscript
    obtain ⟨hdeclared, hopen⟩ := mem_openScripts.1 hscript
    exact ⟨script.1, List.mem_of_getElem? hdeclared, rfl, hopen⟩
  have hall : (m.opened map image).instances.Opening image m.config.openScriptDelay [] :=
    hstart.openAll hopens hcount
  refine ⟨hall.fresh, fun number hnumber => ?_, fun h i hi _ => (hall.scheduled h i hi).2,
    fun h i hi hother => absurd (hall.scheduled h i hi).1 hother,
    fun h h' i i' _ hi' _ hother => absurd (hall.scheduled h' i' hi').1 hother⟩
  exact (hall.live number hnumber).resolve_left nofun

/-- A start finds none of the open scripts missing, so that it makes none. -/
theorem Arranged.insert {m : Machine} {i : ScriptInstance} (hm : m.Arranged)
    (hcount : m.instances.next.toNat + 1 < UInt32.size) (habsent : m.Absent i.number)
    (hdelay : i.delay = m.config.deferredStartDelay) :
    Arranged { m with instances := m.instances.insert i } := by
  have hother : ¬ m.image.Opens i.number := by
    intro hopens
    obtain ⟨h, j, hj, hnumber⟩ := hm.live i.number hopens
    exact habsent h j hj hnumber
  have hcases : ∀ {k j}, (m.instances.insert i).get? k = some j →
      k = m.instances.next ∧ j = i ∨ m.instances.get? k = some j := by
    intro k j hj
    rw [InstanceTable.get?_insert] at hj
    split at hj
    · rename_i hk
      exact .inl ⟨hk, (Option.some.inj hj).symm⟩
    · exact .inr hj
  refine ⟨hm.fresh.insert hcount i, fun number hnumber => ?_, fun k j hj hopens => ?_,
    fun k j hj hcloses => ?_, fun k k' j j' hj hj' hopens hcloses => ?_⟩
  · obtain ⟨k, j, hj, hnumber⟩ := hm.live number hnumber
    exact ⟨k, j, hm.fresh.get?_insert_of_some hj i, hnumber⟩
  · rcases hcases hj with ⟨_, rfl⟩ | hj
    · exact absurd hopens hother
    · exact hm.openDelay k j hj hopens
  · rcases hcases hj with ⟨_, rfl⟩ | hj
    · exact hdelay
    · exact hm.otherDelay k j hj hcloses
  · rcases hcases hj with ⟨_, rfl⟩ | hj
    · exact absurd hopens hother
    · rcases hcases hj' with ⟨rfl, _⟩ | hj'
      · exact hm.fresh k j hj
      · exact hm.order k k' j j' hj hj' hopens hcloses

/-- States do not matter. -/
theorem Arranged.of_spares {m m' : Machine} (hm : m.Arranged) (hadvances : m.Advances 0 m')
    (hspares : ∀ k, k < m.instances.next → m.instances.Spares k m'.instances) : m'.Arranged := by
  have hnext := m.instances.next.toNat_lt
  have hfresh : m'.instances.Fresh := hm.fresh.grow hadvances.table hnext
  have hsame : m'.instances.next = m.instances.next :=
    UInt32.toNat_inj.1 (hadvances.toNat_next hnext)
  have hbefore : ∀ k j, m'.instances.get? k = some j →
      ∃ i, m.instances.get? k = some i ∧ j.number = i.number ∧ j.delay = i.delay := by
    intro k j hj
    have hspared := hspares k (hsame ▸ hfresh k j hj)
    cases hi : m.instances.get? k with
    | none =>
        rw [hspared.gone hi] at hj
        cases hj
    | some i =>
        obtain ⟨state, _, hi'⟩ := hspared.live i hi
        rw [hi'] at hj
        cases hj
        exact ⟨i, rfl, rfl, rfl⟩
  refine ⟨hfresh, ?_, ?_, ?_, ?_⟩
  all_goals rw [hadvances.image]
  · intro number hnumber
    obtain ⟨k, i, hi, hnumber⟩ := hm.live number hnumber
    obtain ⟨state, _, hi'⟩ := (hspares k (hm.fresh k i hi)).live i hi
    exact ⟨k, _, hi', hnumber⟩
  · intro k j hj hopens
    obtain ⟨i, hi, hnumber, hdelay⟩ := hbefore k j hj
    rw [hdelay, hadvances.config]
    exact hm.openDelay k i hi (hnumber ▸ hopens)
  · intro k j hj hcloses
    obtain ⟨i, hi, hnumber, hdelay⟩ := hbefore k j hj
    rw [hdelay, hadvances.config]
    exact hm.otherDelay k i hi (hnumber ▸ hcloses)
  · intro k k' j j' hj hj' hopens hcloses
    obtain ⟨i, hi, hnumber, _⟩ := hbefore k j hj
    obtain ⟨i', hi', hnumber', _⟩ := hbefore k' j' hj'
    exact hm.order k k' i i' hi hi' (hnumber ▸ hopens) (hnumber' ▸ hcloses)

theorem Arranged.replay {m : Machine} {action : DeferredAction} (hm : m.Arranged)
    (hmap : action.map = m.map)
    (hcount : m.instances.next.toNat + (m.replayReply action).handles < UInt32.size) :
    (m.replay action).machine.Arranged := by
  have hadvances := m.replay_advances action
  by_cases hstarted : (m.replayReply action).answer = .ok .started
  · obtain ⟨definition, info, hscript, habsent, _, hreplay⟩ := replay_of_started hmap hstarted
    rw [Reply.handles, hstarted] at hcount
    rw [← (Image.findScript?_eq_some hscript).2] at habsent
    rw [hreplay]
    exact hm.insert hcount habsent rfl
  · have hhandles : (m.replayReply action).handles = 0 := by
      unfold Reply.handles
      split
      · rename_i hanswer
        exact absurd hanswer hstarted
      · rfl
    rw [hhandles] at hadvances
    refine hm.of_spares hadvances fun k hk => ?_
    rw [replay_of_ne_started hstarted, ← serve_request hmap]
    exact serve_spares hk action.request

theorem Arranged.replays {m : Machine} {actions : List DeferredAction} (hm : m.Arranged)
    (hmap : ∀ a ∈ actions, a.map = m.map)
    (hcount : m.instances.next.toNat + m.replayHandles actions < UInt32.size) :
    (actions.foldl (fun m action => (m.replay action).machine) m).Arranged := by
  induction actions generalizing m with
  | nil => exact hm
  | cons action rest ih =>
      rw [List.forall_mem_cons] at hmap
      obtain ⟨hfirst, hrest⟩ := (m.replay_advances action).counts hcount
      refine ih (hm.replay hmap.1 hfirst) ?_ hrest
      rw [(m.replay_advances action).map]
      exact hmap.2

theorem load_arranged {m : Machine} {map : Int32} {bytes : List UInt8}
    (hcount : m.CountsOn [.load map bytes]) : (m.load map bytes).report.machine.Arranged := by
  have hopening := scheduleAll_advances (m := m.reset map (loadedImage bytes))
    (sound_loadedImage bytes) fun _ => rfl
  obtain ⟨hopen, hrest⟩ := hopening.counts hcount.1
  rw [machine_scheduleAll] at hrest
  rw [machine_load, machine_enter]
  exact (opened_arranged m map hopen).replays DeferredQueue.map_of_mem_forMap hrest

/-- Waiting actions are served like requests.  A load is the same machine as the load without the
actions that wait for its map, after which their requests are made one by one in the order in which
they waited, a script being delayed where its request has started it.  As long as the counter does
not start over, the open scripts of the map are then live with their delay, whatever else is live
has the delay of a start that was waiting, and the handles of the open scripts come first. -/
theorem load_replays_requests (v : Machine) (map : Int32) (bytes : List UInt8) :
    let after := (v.load map bytes).report.machine
    let relieved : Machine := { v with deferred := v.deferred.without map }
    after = (v.deferred.forMap map).foldl issue (relieved.load map bytes).report.machine ∧
    (v.CountsOn [.load map bytes] → after.config = v.config ∧ after.Arranged) := by
  refine ⟨?_, fun hcount => ⟨?_, load_arranged hcount⟩⟩
  · rw [machine_load, machine_load, machine_enter, machine_enter_without]
    exact replays_eq_issues DeferredQueue.map_of_mem_forMap
  · rw [machine_load]
    exact (enter_advances v map (sound_loadedImage bytes)).config

/-- Actions of each kind wait for the third map, one of them a start of its open script; a start
waits for the fourth. -/
def expectant : Machine :=
  (new { openScriptDelay := 0, deferredStartDelay := 9 } 0).after
    [.load 1 waitingImage, .tick .new, .start 2 3 .zero .none, .start 2 4 .zero .none,
      .start 1 3 .zero .none, .suspend 2 3, .terminate 1 3]

/-- The open script is terminating under handle 3 and the one that was started is suspended under
handle 4. -/
theorem load_replays_requests_expectant :
    let after := (expectant.load 3 waitingImage).report.machine
    let relieved : Machine := { expectant with deferred := expectant.deferred.without 3 }
    expectant.CountsOn [.load 3 waitingImage] ∧ after.deferred.size = 1 ∧
    after = (expectant.deferred.forMap 3).foldl issue
      (relieved.load 3 waitingImage).report.machine ∧
    after.instances.get? 3 = some { ScriptInstance.new 0 ⟨1, 2, 0, true⟩ .zero .none with
      state := .terminating } ∧
    after.instances.get? 4 = some { ScriptInstance.new 1 ⟨2, 9, 0, false⟩ .zero .none with
      state := .suspended
      delay := 9 } ∧
    after.Arranged := by
  have hcount : expectant.CountsOn [.load 3 waitingImage] := by decide +kernel
  obtain ⟨hissued, harranged⟩ := load_replays_requests expectant 3 waitingImage
  exact ⟨hcount, by decide +kernel, hissued, by decide +kernel, by decide +kernel,
    (harranged hcount).2⟩

end Machine

end MapScript
