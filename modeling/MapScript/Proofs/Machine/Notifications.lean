import MapScript.Proofs.Interpreter.Busyness
import MapScript.Proofs.Machine.Turns

/-!
# Being told and asking

A tick after the news that something has come to rest does the same as a tick that finds it at rest.
Until an instance that waits for it has had its turn, the two runs differ in its state: it is
running in the one and waiting in the other.  `wakeAmong` puts the tables of both runs into one
equation, with the handles whose turn is still to come.
-/

namespace MapScript

namespace InstanceTable

/-- An instance whose turn may still be to come, as it is where the news was given at once. -/
def told (awaited : Awaited) (handles : List UInt32) (h : UInt32) (i : ScriptInstance) :
    ScriptInstance :=
  if h ∈ handles ∧ i.state = .waiting awaited then { i with state := .running } else i

/-- Sets running those of the given handles that wait for a thing. -/
def wakeAmong (t : InstanceTable) (awaited : Awaited) (handles : List UInt32) : InstanceTable :=
  { t with records := t.records.mapValues (told awaited handles) }

variable {t : InstanceTable} {awaited : Awaited} {handles : List UInt32} {h : UInt32}
  {i : ScriptInstance}

theorem told_of_ne (hstate : i.state ≠ .waiting awaited) : told awaited handles h i = i :=
  if_neg fun hboth => hstate hboth.2

@[simp] theorem number_told : (told awaited handles h i).number = i.number := by
  unfold told
  split <;> rfl

@[simp] theorem delay_told : (told awaited handles h i).delay = i.delay := by
  unfold told
  split <;> rfl

/-- Only the state can tell the two runs apart. -/
@[simp] theorem told_with_state (state : ScriptState) :
    { told awaited handles h i with state } = { i with state } := by
  unfold told
  split <;> rfl

/-- A state other than waiting and running is the same in both runs. -/
theorem state_told_eq_iff {state : ScriptState} (hwait : state ≠ .waiting awaited)
    (hrunning : state ≠ .running) :
    (told awaited handles h i).state = state ↔ i.state = state := by
  unfold told
  split
  · rename_i hboth
    rw [hboth.2]
    exact ⟨fun heq => absurd heq.symm hrunning, fun heq => absurd heq.symm hwait⟩
  · exact Iff.rfl

theorem get?_wakeAmong (k : UInt32) :
    (t.wakeAmong awaited handles).get? k = (t.get? k).map (told awaited handles k) :=
  t.records.get?_mapValues (told awaited handles) k

@[simp] theorem next_wakeAmong : (t.wakeAmong awaited handles).next = t.next := rfl

theorem find?_wakeAmong (number : Int32) :
    (t.wakeAmong awaited handles).find? number =
      (t.find? number).map fun found => (found.1, told awaited handles found.1 found.2) := by
  simp only [find?, wakeAmong, HandleMap.mapValues, List.find?_map, Function.comp_def, number_told]

theorem contains_wakeAmong (number : Int32) :
    (t.wakeAmong awaited handles).contains number = t.contains number := by
  rw [contains, contains, find?_wakeAmong, Option.isSome_map]

/-! ## The two ends of a tick -/

theorem wakeAmong_handles : t.wakeAmong awaited t.handles = t.wake awaited := by
  refine ext_get? rfl fun k => ?_
  rw [get?_wakeAmong, get?_wake]
  apply Option.map_congr
  intro i hi
  have hlive : k ∈ t.handles := (t.mem_handles_iff k).2 ⟨i, hi⟩
  simp only [told, hlive, true_and]

theorem wakeAmong_nil : t.wakeAmong awaited [] = t := by
  refine ext_get? rfl fun k => ?_
  rw [get?_wakeAmong]
  have hid : told awaited [] k = id := by
    funext i
    simp [told]
  rw [hid, Option.map_id_fun, id_eq]

/-- A handle under which nobody waits for the thing may be left out. -/
theorem wakeAmong_cons (hnone : ∀ i, t.get? h = some i → i.state ≠ .waiting awaited) :
    t.wakeAmong awaited (h :: handles) = t.wakeAmong awaited handles := by
  refine ext_get? rfl fun k => ?_
  rw [get?_wakeAmong, get?_wakeAmong]
  apply Option.map_congr
  intro i hi
  by_cases hk : k = h
  · rw [told_of_ne (hnone i (hk ▸ hi)), told_of_ne (hnone i (hk ▸ hi))]
  · simp only [told, List.mem_cons, hk, false_or]

/-! ## Operations on the table -/

theorem insert_wakeAmong (hstate : i.state ≠ .waiting awaited) :
    (t.wakeAmong awaited handles).insert i = (t.insert i).wakeAmong awaited handles := by
  refine ext_get? rfl fun k => ?_
  rw [get?_insert, get?_wakeAmong, get?_wakeAmong, get?_insert, next_wakeAmong]
  split
  · rw [Option.map_some, told_of_ne hstate]
  · rfl

theorem setState_wakeAmong {state : ScriptState} (hstate : state ≠ .waiting awaited) :
    (t.wakeAmong awaited handles).setState h state =
      (t.setState h state).wakeAmong awaited handles := by
  refine ext_get? rfl fun k => ?_
  rw [setState, setState, get?_modify, get?_wakeAmong, get?_wakeAmong, get?_modify]
  split
  · rw [Option.map_map, Option.map_map]
    congr 1
    funext i
    simp only [Function.comp_apply, told_with_state]
    rw [told_of_ne hstate]
  · rfl

theorem remove_wakeAmong :
    (t.wakeAmong awaited handles).remove h = (t.remove h).wakeAmong awaited handles := by
  refine ext_get? rfl fun k => ?_
  rw [get?_remove, get?_wakeAmong, get?_wakeAmong, get?_remove]
  split <;> rfl

theorem wake_wakeAmong (other : Awaited) :
    (t.wakeAmong awaited handles).wake other = (t.wake other).wakeAmong awaited handles := by
  refine ext_get? rfl fun k => ?_
  rw [get?_wake, get?_wakeAmong, get?_wakeAmong, get?_wake, Option.map_map, Option.map_map]
  congr 1
  funext i
  simp only [Function.comp_apply, told]
  grind

/-- Once its turn has come, what becomes of an instance is the same in both runs. -/
theorem modify_wakeAmong (hout : h ∉ handles) :
    (t.wakeAmong awaited (h :: handles)).modify h (fun _ => i) =
      (t.modify h fun _ => i).wakeAmong awaited handles := by
  refine ext_get? rfl fun k => ?_
  rw [get?_modify, get?_wakeAmong, get?_wakeAmong, get?_modify]
  by_cases hk : k = h
  · subst hk
    rw [if_pos rfl, if_pos rfl, Option.map_map, Option.map_map]
    congr 1
    funext j
    simp only [Function.comp_apply, told, hout, false_and, if_false]
  · rw [if_neg hk, if_neg hk]
    congr 1
    funext j
    simp only [told, List.mem_cons, hk, false_or]

end InstanceTable

/-! ## Requests -/

def Machine.wakeAmong (m : Machine) (awaited : Awaited) (handles : List UInt32) : Machine :=
  { m with instances := m.instances.wakeAmong awaited handles }

def Reply.wakeAmong (r : Reply) (awaited : Awaited) (handles : List UInt32) : Reply :=
  { r with machine := r.machine.wakeAmong awaited handles }

namespace Machine

variable {awaited : Awaited} {handles : List UInt32} (m : Machine)

theorem startHere_wakeAmong (number : Int32) (args : SpecialArgs) (trigger : Trigger) :
    (m.wakeAmong awaited handles).startHere number args trigger =
      (m.startHere number args trigger).wakeAmong awaited handles := by
  simp only [startHere, wakeAmong, InstanceTable.find?_wakeAmong]
  cases m.image.findScript? number with
  | none => rfl
  | some script =>
      cases m.instances.find? number with
      | none =>
          have hfresh : (ScriptInstance.new script.1 script.2 args trigger).state ≠
              .waiting awaited := nofun
          simp only [Option.map_none, Reply.wakeAmong, wakeAmong,
            InstanceTable.insert_wakeAmong hfresh]
      | some found =>
          have hsuspended : (InstanceTable.told awaited handles found.1 found.2).state =
              .suspended ↔ found.2.state = .suspended :=
            InstanceTable.state_told_eq_iff nofun nofun
          have hset : (m.instances.wakeAmong awaited handles).setState found.1 .running =
              (m.instances.setState found.1 .running).wakeAmong awaited handles :=
            InstanceTable.setState_wakeAmong nofun
          simp only [Option.map_some, hsuspended, hset]
          split <;> rfl

theorem suspendHere_wakeAmong (number : Int32) :
    (m.wakeAmong awaited handles).suspendHere number =
      (m.suspendHere number).wakeAmong awaited handles := by
  simp only [suspendHere, wakeAmong, InstanceTable.find?_wakeAmong]
  cases m.instances.find? number with
  | none => rfl
  | some found =>
      have hset : (m.instances.wakeAmong awaited handles).setState found.1 .suspended =
          (m.instances.setState found.1 .suspended).wakeAmong awaited handles :=
        InstanceTable.setState_wakeAmong nofun
      simp only [Option.map_some, hset]
      by_cases hwaits : found.1 ∈ handles ∧ found.2.state = .waiting awaited
      · -- running in the one run, waiting in the other: suspended in both
        rw [InstanceTable.told, if_pos hwaits, hwaits.2]
        rfl
      · rw [InstanceTable.told, if_neg hwaits]
        split <;> rfl

theorem terminateHere_wakeAmong (number : Int32) :
    (m.wakeAmong awaited handles).terminateHere number =
      (m.terminateHere number).wakeAmong awaited handles := by
  simp only [terminateHere, wakeAmong, InstanceTable.find?_wakeAmong]
  cases m.instances.find? number with
  | none => rfl
  | some found =>
      have hterminating : (InstanceTable.told awaited handles found.1 found.2).state =
          .terminating ↔ found.2.state = .terminating :=
        InstanceTable.state_told_eq_iff nofun nofun
      have hset : (m.instances.wakeAmong awaited handles).setState found.1 .terminating =
          (m.instances.setState found.1 .terminating).wakeAmong awaited handles :=
        InstanceTable.setState_wakeAmong nofun
      simp only [Option.map_some, hterminating, hset]
      split <;> rfl

theorem serve_wakeAmong (r : ScriptRequest) :
    (m.wakeAmong awaited handles).serve r = (m.serve r).wakeAmong awaited handles := by
  have helsewhere : (m.wakeAmong awaited handles).isElsewhere r.map = m.isElsewhere r.map := rfl
  unfold serve start suspend terminate
  rw [helsewhere, startHere_wakeAmong, suspendHere_wakeAmong, terminateHere_wakeAmong]
  cases r.kind <;> cases m.isElsewhere r.map <;> rfl

end Machine

/-! ## Turns and ticks -/

namespace Session

/-- The session `a`, where the news was given at once, and the session `b`, where the thing is found
at rest, with the handles whose turn is still to come. -/
structure Agrees (awaited : Awaited) (handles : List UInt32) (a b : Session) : Prop where
  machine : a.machine = b.machine.wakeAmong awaited handles
  host : b.host = a.host.settle awaited
  journal : a.journal = b.journal

namespace Agrees

variable {awaited : Awaited} {handles : List UInt32} {a b : Session} {h : UInt32}
  {i : ScriptInstance}

theorem get? (hab : Agrees awaited handles a b) (k : UInt32) :
    a.machine.instances.get? k =
      (b.machine.instances.get? k).map (InstanceTable.told awaited handles k) := by
  rw [hab.machine]
  exact InstanceTable.get?_wakeAmong k

theorem drop (hab : Agrees awaited (h :: handles) a b)
    (hnone : ∀ i, b.machine.instances.get? h = some i → i.state ≠ .waiting awaited) :
    Agrees awaited handles a b := by
  refine ⟨?_, hab.host, hab.journal⟩
  rw [hab.machine, Machine.wakeAmong, Machine.wakeAmong, InstanceTable.wakeAmong_cons hnone]

theorem note (hab : Agrees awaited handles a b) (n : Notice) :
    Agrees awaited handles (a.note n) (b.note n) :=
  ⟨hab.machine, hab.host, congrArg (·.push n) hab.journal⟩

theorem serve (hab : Agrees awaited handles a b) (r : ScriptRequest) :
    Agrees awaited handles (a.serve r) (b.serve r) := by
  have hreply : a.machine.serve r = (b.machine.serve r).wakeAmong awaited handles := by
    rw [hab.machine, Machine.serve_wakeAmong]
  refine ⟨?_, hab.host, ?_⟩
  · simp only [Session.serve, hreply, Reply.wakeAmong]
  · simp only [Session.serve, hreply, Reply.wakeAmong, hab.journal]

theorem serveAll (hab : Agrees awaited handles a b) (requests : List ScriptRequest) :
    Agrees awaited handles (requests.foldl Session.serve a) (requests.foldl Session.serve b) := by
  induction requests generalizing a b with
  | nil => exact hab
  | cons r rest ih => exact ih (hab.serve r)

theorem finish (hab : Agrees awaited handles a b) (h : UInt32) :
    Agrees awaited handles (a.finish h) (b.finish h) := by
  have hget := hab.get? h
  cases hi : b.machine.instances.get? h with
  | none =>
      rw [hi, Option.map_none] at hget
      rw [Session.finish, Session.finish, hi, hget]
      exact hab
  | some i =>
      rw [hi, Option.map_some] at hget
      rw [finish_of_some hi, finish_of_some hget]
      refine ⟨?_, hab.host, ?_⟩
      · simp only [ended, hab.machine, Machine.wakeAmong, InstanceTable.number_told,
          InstanceTable.remove_wakeAmong, InstanceTable.wake_wakeAmong]
      · simp only [ended, hab.machine, hab.journal, Machine.wakeAmong, InstanceTable.number_told]

theorem slice (hab : Agrees awaited (h :: handles) a b) (hout : h ∉ handles) :
    Agrees awaited handles (a.slice h { i with state := .running }).session
      (b.slice h { i with state := .running }).session ∧
    (a.slice h { i with state := .running }).requests =
      (b.slice h { i with state := .running }).requests := by
  -- both slices run on the same context but for what is busy, and no slice asks for that
  have hcontext : b.context = a.context.settle awaited := by
    rw [context, context, hab.machine, hab.host]
    rfl
  have hsliced : b.sliced i = (a.sliced i).settle awaited := by
    rw [sliced, sliced, hcontext, runSlice_settle, hab.machine]
    rfl
  have habsorb : Agrees awaited handles (a.absorb h (a.sliced i)) (b.absorb h (b.sliced i)) := by
    rw [hsliced]
    refine ⟨?_, rfl, ?_⟩
    · simp only [absorb, hab.machine, Machine.wakeAmong, InstanceTable.modify_wakeAmong hout]
      rfl
    · simp only [absorb, hab.journal]
      rfl
  have hending : (b.sliced i).ending = (a.sliced i).ending := by rw [hsliced]; rfl
  refine ⟨?_, by rw [requests_slice, requests_slice, hsliced]; rfl⟩
  rw [session_slice, session_slice, hending]
  cases (a.sliced i).ending with
  | «continue» | yield => exact habsorb
  | terminate => exact habsorb.finish h
  | fault f =>
      have hnotice : Notice.faulted a.machine.map (a.sliced i).inst.number (a.sliced i).inst.pc f =
          .faulted b.machine.map (b.sliced i).inst.number (b.sliced i).inst.pc f := by
        rw [hsliced, hab.machine]
        rfl
      simp only
      rw [hnotice]
      exact (habsorb.note _).finish h

theorem run (hab : Agrees awaited (h :: handles) a b) (hout : h ∉ handles)
    (hi : b.machine.instances.get? h = some i) :
    Agrees awaited handles (a.run h (InstanceTable.told awaited (h :: handles) h i)).session
      (b.run h i).session ∧
    (a.run h (InstanceTable.told awaited (h :: handles) h i)).requests = (b.run h i).requests := by
  have hget := hab.get? h
  rw [hi, Option.map_some] at hget
  by_cases hdelay : i.delay = 0
  · rw [run_of_no_delay hdelay, run_of_no_delay (InstanceTable.delay_told.trans hdelay),
      InstanceTable.told_with_state]
    exact hab.slice hout
  · rw [run_of_delay hi hdelay, run_of_delay hget (by rwa [InstanceTable.delay_told])]
    refine ⟨⟨?_, hab.host, hab.journal⟩, rfl⟩
    have hsatOut : { InstanceTable.told awaited (h :: handles) h i with
        state := .running, delay := (InstanceTable.told awaited (h :: handles) h i).delay - 1 } =
        { i with state := .running, delay := i.delay - 1 } := by
      unfold InstanceTable.told
      split <;> rfl
    simp only [satOut, hab.machine, Machine.wakeAmong, hsatOut,
      InstanceTable.modify_wakeAmong hout]

theorem pending (hab : Agrees awaited handles a b) {on : Awaited} (hon : on ≠ awaited) :
    a.pending on = b.pending on := by
  cases on with
  | tag tag => simp [Session.pending, hab.host, Host.tagBusy_settle, hon.symm]
  | poly poly => simp [Session.pending, hab.host, Host.polyBusy_settle, hon.symm]
  | script number =>
      rw [Session.pending, Session.pending, hab.machine]
      exact InstanceTable.contains_wakeAmong number

section

variable (hab : Agrees awaited handles a b) (hstate : i.state ≠ .waiting awaited)
include hab hstate

theorem held_iff : a.Held i ↔ b.Held i := by
  refine or_congr_right (exists_congr fun on => and_congr_right fun hon => ?_)
  rw [hab.pending fun heq => hstate (heq ▸ hon)]

theorem runnable_iff : a.Runnable i ↔ b.Runnable i := by
  refine or_congr_right (exists_congr fun on => and_congr_right fun hon => ?_)
  rw [hab.pending fun heq => hstate (heq ▸ hon)]

end

theorem not_pending (hab : Agrees awaited handles a b)
    (hmoving : ∀ number, awaited ≠ .script number) : b.pending awaited = false := by
  cases awaited with
  | tag tag => simp [Session.pending, hab.host, Host.tagBusy_settle]
  | poly poly => simp [Session.pending, hab.host, Host.polyBusy_settle]
  | script number => exact absurd rfl (hmoving number)

theorem play (hab : Agrees awaited (h :: handles) a b) (hout : h ∉ handles)
    (hmoving : ∀ number, awaited ≠ .script number) :
    Agrees awaited handles (a.play h).session (b.play h).session ∧
      (a.play h).requests = (b.play h).requests := by
  have hget := hab.get? h
  cases hi : b.machine.instances.get? h with
  | none =>
      rw [hi, Option.map_none] at hget
      rw [play_of_none hi, play_of_none hget]
      refine ⟨hab.drop fun i hi' => ?_, rfl⟩
      rw [hi] at hi'
      cases hi'
  | some i =>
      rw [hi, Option.map_some] at hget
      by_cases hwait : i.state = .waiting awaited
      · -- told of it, the instance is running; asking, its wait is over
        have hrunning : (InstanceTable.told awaited (h :: handles) h i).state = .running := by
          rw [InstanceTable.told, if_pos ⟨List.mem_cons_self, hwait⟩]
        rw [play_of_runnable hget (.inl hrunning),
          play_of_runnable hi (.inr ⟨awaited, hwait, hab.not_pending hmoving⟩)]
        exact hab.run hout hi
      · have hsame : InstanceTable.told awaited (h :: handles) h i = i :=
          InstanceTable.told_of_ne hwait
        have hdrop : Agrees awaited handles a b := by
          refine hab.drop fun j hj => ?_
          rw [hi] at hj
          cases hj
          exact hwait
        rw [hsame] at hget
        rcases b.held_or_runnable i with hstate | hheld | hrunnable
        · rw [play_of_terminating hi hstate, play_of_terminating hget hstate]
          exact ⟨hdrop.finish h, rfl⟩
        · rw [play_of_held hi hheld, play_of_held hget ((hab.held_iff hwait).2 hheld)]
          exact ⟨hdrop, rfl⟩
        · have hrun := hab.run hout hi
          rw [hsame] at hrun
          rw [play_of_runnable hi hrunnable,
            play_of_runnable hget ((hab.runnable_iff hwait).2 hrunnable)]
          exact hrun

theorem turn (hab : Agrees awaited (h :: handles) a b) (hout : h ∉ handles)
    (hmoving : ∀ number, awaited ≠ .script number) :
    Agrees awaited handles (a.turn h) (b.turn h) := by
  obtain ⟨hsession, hrequests⟩ := hab.play hout hmoving
  rw [Session.turn, Session.turn, hrequests]
  exact hsession.serveAll _

theorem machine_eq (hab : Agrees awaited [] a b) : a.machine = b.machine := by
  rw [hab.machine, Machine.wakeAmong, InstanceTable.wakeAmong_nil]

theorem events_eq (hab : Agrees awaited handles a b) : a.host.events = b.host.events := by
  rw [hab.host]
  cases awaited <;> rfl

theorem turns (hab : Agrees awaited handles a b) (hdistinct : handles.Nodup)
    (hmoving : ∀ number, awaited ≠ .script number) :
    Agrees awaited [] (handles.foldl Session.turn a) (handles.foldl Session.turn b) := by
  induction handles generalizing a b with
  | nil => exact hab
  | cons h rest ih =>
      rw [List.nodup_cons] at hdistinct
      -- whoever has had its turn has none left in this tick
      exact ih (hab.turn hdistinct.1 hmoving) hdistinct.2

end Agrees

theorem tick_agrees (m : Machine) (host : Host) (awaited : Awaited)
    (hmoving : ∀ number, awaited ≠ .script number) :
    Agrees awaited [] (tick { machine := m.wake awaited, host })
      (tick { machine := m, host := host.settle awaited }) := by
  have hstart : Agrees awaited m.instances.handles { machine := m.wake awaited, host }
      { machine := m, host := host.settle awaited } := by
    refine ⟨?_, rfl, rfl⟩
    rw [Machine.wake, Machine.wakeAmong, InstanceTable.wakeAmong_handles]
  have hhandles : (m.wake awaited).instances.handles = m.instances.handles :=
    m.instances.records.handles_mapValues _
  rw [tick, tick, hhandles]
  exact hstart.turns m.instances.nodup_handles hmoving

/-- Giving the news that a tag or a polyobject has come to rest before a tick comes to the same as
finding it at rest in the tick: the machine, the events and the reports are the same, and the hosts
differ only in what is busy. -/
theorem tick_notified (m : Machine) (host : Host) (tag poly : Int32) :
    (let told := tick { machine := m.tagFinished tag, host }
     let polled := tick { machine := m, host := host.setTagBusy tag false }
     told.machine = polled.machine ∧ told.host.events = polled.host.events ∧
      told.journal = polled.journal ∧ polled.host = told.host.setTagBusy tag false) ∧
    (let told := tick { machine := m.polyFinished poly, host }
     let polled := tick { machine := m, host := host.setPolyBusy poly false }
     told.machine = polled.machine ∧ told.host.events = polled.host.events ∧
      told.journal = polled.journal ∧ polled.host = told.host.setPolyBusy poly false) := by
  have htag := tick_agrees m host (.tag tag) nofun
  have hpoly := tick_agrees m host (.poly poly) nofun
  exact ⟨⟨htag.machine_eq, htag.events_eq, htag.journal, htag.host⟩,
    hpoly.machine_eq, hpoly.events_eq, hpoly.journal, hpoly.host⟩

end Session

end MapScript
