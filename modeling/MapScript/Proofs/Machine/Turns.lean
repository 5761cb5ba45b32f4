import MapScript.Machine.Load
import MapScript.Proofs.Machine.Requests

/-!
# Turns

What the instance under a handle does in its turn, case by case, and what becomes of the others.
Its own part of the turn changes no other instance, unless it ends and others wait for its script;
after that only the requests it raised reach them.  Host, variables, message and generator change
only by the slice it runs, and where it runs none they stay as they are.
-/

namespace MapScript

namespace InstanceTable

variable {t t' : InstanceTable} {h k : UInt32}

theorem modify_const {i : ScriptInstance} (f : ScriptInstance → ScriptInstance)
    (hi : t.get? h = some i) : t.modify h f = t.modify h fun _ => f i := by
  refine ext_get? rfl fun k => ?_
  rw [get?_modify, get?_modify]
  split
  · rename_i hk
    rw [hk, hi, Option.map_some, Option.map_some]
  · rfl

theorem modify_self {i : ScriptInstance} (hi : t.get? h = some i) :
    t.modify h (fun _ => i) = t := by
  refine ext_get? rfl fun k => ?_
  rw [get?_modify]
  split
  · rename_i hk
    rw [hk, hi, Option.map_some]
  · rfl

theorem remove_modify (f : ScriptInstance → ScriptInstance) :
    (t.modify h f).remove h = t.remove h := by
  refine ext_get? rfl fun k => ?_
  rw [get?_remove, get?_remove, get?_modify]
  split <;> rfl

/-- What its part of a turn can make of an instance: there is none; it lives on, of the same script;
or it is removed and those that wait for its script are woken. -/
inductive Plays (t : InstanceTable) (h : UInt32) : InstanceTable → Prop
  | absent (hnone : t.get? h = none) : Plays t h t
  | lives {j j' : ScriptInstance} (hj : t.get? h = some j) (hnumber : j'.number = j.number) :
      Plays t h (t.modify h fun _ => j')
  | ends {j : ScriptInstance} (hj : t.get? h = some j) :
      Plays t h ((t.remove h).wake (.script j.number))

theorem Plays.unchanged {j : ScriptInstance} (hj : t.get? h = some j) : t.Plays h t := by
  have hlives : t.Plays h (t.modify h fun _ => j) := .lives hj rfl
  rw [modify_self hj] at hlives
  exact hlives

theorem Plays.next (hplays : t.Plays h t') : t'.next = t.next := by
  cases hplays <;> rfl

/-- Another instance is left alone, unless it waits for the script of the one that is removed. -/
theorem Plays.get?_of_ne (hplays : t.Plays h t') (hk : k ≠ h) {i : ScriptInstance}
    (hi : t.get? k = some i) :
    t'.get? k = some i ∨ ∃ j, t.get? h = some j ∧ t'.get? h = none ∧
      i.state = .waiting (.script j.number) ∧ t'.get? k = some { i with state := .running } := by
  cases hplays with
  | absent hnone => exact .inl hi
  | lives hj hnumber =>
      rw [get?_modify, if_neg hk]
      exact .inl hi
  | @ends j hj =>
      rw [get?_wake, get?_wake, get?_remove, get?_remove, if_neg hk, if_pos rfl, hi,
        Option.map_some]
      by_cases hstate : i.state = .waiting (.script j.number)
      · rw [if_pos hstate]
        exact .inr ⟨j, hj, rfl, hstate, rfl⟩
      · rw [if_neg hstate]
        exact .inl rfl

/-- The instance itself lives on as one of its script, or it is removed and nobody is left waiting
for its script. -/
theorem Plays.get?_self (hplays : t.Plays h t') {j : ScriptInstance} (hj : t.get? h = some j) :
    (∃ j', t'.get? h = some j' ∧ j'.number = j.number) ∨
      t'.get? h = none ∧ ∀ k i, t'.get? k = some i → i.state ≠ .waiting (.script j.number) := by
  cases hplays with
  | absent hnone =>
      rw [hj] at hnone
      cases hnone
  | @lives j₀ j' hj₀ hnumber =>
      rw [hj] at hj₀
      cases hj₀
      refine .inl ⟨j', ?_, hnumber⟩
      rw [get?_modify, if_pos rfl, hj, Option.map_some]
  | @ends j₀ hj₀ =>
      rw [hj] at hj₀
      cases hj₀
      refine .inr ⟨?_, fun k i hi => ?_⟩
      · rw [get?_wake, get?_remove, if_pos rfl, Option.map_none]
      · rw [get?_wake] at hi
        obtain ⟨i₀, _, rfl⟩ := Option.map_eq_some_iff.1 hi
        split
        · exact nofun
        · assumption

end InstanceTable

namespace Session

variable {s : Session} {h : UInt32} {i : ScriptInstance}

/-- The instance may not run now: it is suspended, or what it waits for is still to come. -/
def Held (s : Session) (i : ScriptInstance) : Prop :=
  i.state = .suspended ∨ ∃ on, i.state = .waiting on ∧ s.pending on = true

/-- The instance may run now: it is running, or its wait is over. -/
def Runnable (s : Session) (i : ScriptInstance) : Prop :=
  i.state = .running ∨ ∃ on, i.state = .waiting on ∧ s.pending on = false

theorem held_or_runnable (s : Session) (i : ScriptInstance) :
    i.state = .terminating ∨ s.Held i ∨ s.Runnable i := by
  cases hstate : i.state with
  | terminating => exact .inl rfl
  | suspended => exact .inr (.inl (.inl hstate))
  | running => exact .inr (.inr (.inl hstate))
  | waiting on =>
      cases hpending : s.pending on with
      | true => exact .inr (.inl (.inr ⟨on, hstate, hpending⟩))
      | false => exact .inr (.inr (.inr ⟨on, hstate, hpending⟩))

/-! ## The part of the instance -/

theorem play_of_none (hi : s.machine.instances.get? h = none) :
    s.play h = { session := s } := by
  rw [play, hi]

theorem play_of_terminating (hi : s.machine.instances.get? h = some i)
    (hstate : i.state = .terminating) : s.play h = { session := s.finish h } := by
  rw [play, hi]
  simp only [hstate]

theorem play_of_held (hi : s.machine.instances.get? h = some i) (hheld : s.Held i) :
    s.play h = { session := s } := by
  rw [play, hi]
  rcases hheld with hstate | ⟨on, hstate, hpending⟩
  · simp only [hstate]
  · simp only [hstate, hpending, if_true]

theorem play_of_runnable (hi : s.machine.instances.get? h = some i) (hrunnable : s.Runnable i) :
    s.play h = s.run h i := by
  rw [play, hi]
  rcases hrunnable with hstate | ⟨on, hstate, hpending⟩
  · simp only [hstate]
  · simp only [hstate, hpending, if_false, Bool.false_eq_true]

/-- The session in which an instance has sat out one more turn. -/
def satOut (s : Session) (h : UInt32) (i : ScriptInstance) : Session :=
  let instances := s.machine.instances.modify h fun _ =>
    { i with state := .running, delay := i.delay - 1 }
  { s with machine := { s.machine with instances } }

theorem run_of_delay (hi : s.machine.instances.get? h = some i) (hdelay : i.delay ≠ 0) :
    s.run h i = { session := s.satOut h i } := by
  rw [run, if_neg hdelay, satOut, InstanceTable.modify_const _ hi]

theorem run_of_no_delay (hdelay : i.delay = 0) :
    s.run h i = s.slice h { i with state := .running } := by
  rw [run, if_pos hdelay]

/-- The session in which an instance has ended. -/
def ended (s : Session) (h : UInt32) (i : ScriptInstance) : Session :=
  { s with
    machine := { s.machine with
      instances := (s.machine.instances.remove h).wake (.script i.number) }
    journal := s.journal.push (.finished s.machine.map i.number) }

@[simp] theorem host_finish (s : Session) (h : UInt32) : (s.finish h).host = s.host := by
  unfold finish
  split <;> rfl

theorem finish_of_some (hi : s.machine.instances.get? h = some i) : s.finish h = s.ended h i := by
  rw [finish, hi]
  rfl

theorem get?_play_of_terminating (hi : s.machine.instances.get? h = some i)
    (hstate : i.state = .terminating) :
    (s.play h).session.machine.instances.get? h = none := by
  rw [play_of_terminating hi hstate, finish_of_some hi]
  simp only [ended]
  rw [InstanceTable.get?_wake, InstanceTable.get?_remove, if_pos rfl, Option.map_none]

/-- What the slice of an instance comes to. -/
def sliced (s : Session) (i : ScriptInstance) : Stepped :=
  runSlice s.machine.image s.machine.config.runawayLimit { i with state := .running } s.context

@[simp] theorem requests_slice : (s.slice h { i with state := .running }).requests =
    (s.sliced i).context.requests.toList := rfl

theorem session_slice : (s.slice h { i with state := .running }).session =
    match (s.sliced i).ending with
    | .continue | .yield => s.absorb h (s.sliced i)
    | .terminate => (s.absorb h (s.sliced i)).finish h
    | .fault f => ((s.absorb h (s.sliced i)).note
        (.faulted s.machine.map (s.sliced i).inst.number (s.sliced i).inst.pc f)).finish h := rfl

/-- A slice never stops while it could go on, so that it ends in one of two ways. -/
theorem sliced_ending (s : Session) (i : ScriptInstance) :
    (s.sliced i).ending = .yield ∨
      (s.sliced i).ending = .terminate ∨ ∃ f, (s.sliced i).ending = .fault f := by
  cases hend : (s.sliced i).ending with
  | «continue» => exact absurd hend (runSlice_ending _ _ _ _)
  | yield => exact .inl rfl
  | terminate => exact .inr (.inl rfl)
  | fault f => exact .inr (.inr ⟨f, rfl⟩)

theorem slice_of_yield (hend : (s.sliced i).ending = .yield) :
    (s.slice h { i with state := .running }).session = s.absorb h (s.sliced i) := by
  rw [session_slice, hend]

theorem slice_of_ends (hi : s.machine.instances.get? h = some i)
    (hend : (s.sliced i).ending = .terminate ∨ ∃ f, (s.sliced i).ending = .fault f) :
    (s.slice h { i with state := .running }).session.machine =
      { (s.absorb h (s.sliced i)).machine with
        instances := (s.machine.instances.remove h).wake (.script i.number) } ∧
    (s.slice h { i with state := .running }).session.host = (s.sliced i).context.host := by
  have hget : (s.absorb h (s.sliced i)).machine.instances.get? h = some (s.sliced i).inst := by
    rw [absorb, InstanceTable.get?_modify, if_pos rfl, hi, Option.map_some]
  have hnumber : (s.sliced i).inst.number = i.number := number_runSlice ..
  have hremove : (s.absorb h (s.sliced i)).machine.instances.remove h =
      s.machine.instances.remove h := InstanceTable.remove_modify _
  -- a fault adds a report to what a termination does, and nothing else
  have hended : (s.slice h { i with state := .running }).session.machine =
      ((s.absorb h (s.sliced i)).finish h).machine ∧
      (s.slice h { i with state := .running }).session.host =
      ((s.absorb h (s.sliced i)).finish h).host := by
    rw [session_slice]
    rcases hend with hend | ⟨f, hend⟩
    · rw [hend]
      exact ⟨rfl, rfl⟩
    · simp only [hend, machine_finish_note, host_finish, true_and]
      rfl
  rw [hended.1, hended.2, finish_of_some hget, ended, hremove, hnumber]
  exact ⟨rfl, rfl⟩

/-- In its part of a turn an instance lives on, or it is removed and its waiters are woken. -/
theorem play_plays (s : Session) (h : UInt32) :
    s.machine.instances.Plays h (s.play h).session.machine.instances := by
  cases hi : s.machine.instances.get? h with
  | none =>
      rw [play_of_none hi]
      exact .absent hi
  | some i =>
      rcases s.held_or_runnable i with hstate | hheld | hrunnable
      · rw [play_of_terminating hi hstate, finish_of_some hi]
        exact .ends hi
      · rw [play_of_held hi hheld]
        exact .unchanged hi
      · rw [play_of_runnable hi hrunnable]
        by_cases hdelay : i.delay = 0
        · rw [run_of_no_delay hdelay]
          rcases s.sliced_ending i with hend | hend
          · rw [slice_of_yield hend]
            exact .lives hi (number_runSlice ..)
          · rw [(slice_of_ends hi hend).1]
            exact .ends hi
        · rw [run_of_delay hi hdelay]
          exact .lives hi rfl

/-! ## The whole turn -/

/-- The requests of a turn that reach the instance under a handle, in order. -/
def reaching (s : Session) (h k : UInt32) : List ScriptRequest :=
  (s.play h).requests.filter ((s.play h).session.machine.Reaches · k)

section

variable {k : UInt32}

theorem mem_reaching {r : ScriptRequest} (hr : r ∈ s.reaching h k)
    (hi : (s.play h).session.machine.instances.get? k = some i) :
    r ∈ (s.play h).requests ∧ r.script = i.number ∧ s.machine.isElsewhere r.map = false := by
  obtain ⟨hmem, hreaches⟩ := List.mem_filter.1 hr
  have hreaches : (s.play h).session.machine.Reaches r k := of_decide_eq_true hreaches
  refine ⟨hmem, hreaches.script_eq hi, ?_⟩
  rw [Machine.isElsewhere, ← (s.play_advances h).map]
  exact hreaches.1

/-- As long as the counter does not start over, an instance that is live after the part of the one
whose turn it is only takes the requests that reach it. -/
theorem get?_turn (hlt : k < s.machine.instances.next)
    (hcount : s.machine.instances.next.toNat + s.turnHandles h < UInt32.size)
    (hi : (s.play h).session.machine.instances.get? k = some i) :
    (s.turn h).machine.instances.get? k =
      some { i with state := i.state.afterRequests (s.reaching h k) } := by
  rw [← (s.play_plays h).next] at hlt hcount
  exact get?_serveAll hlt hcount hi

theorem get?_turn_eq_none (hlt : k < s.machine.instances.next)
    (hcount : s.machine.instances.next.toNat + s.turnHandles h < UInt32.size)
    (hfree : (s.play h).session.machine.instances.get? k = none) :
    (s.turn h).machine.instances.get? k = none := by
  rw [← (s.play_plays h).next] at hlt hcount
  exact get?_serveAll_eq_none hlt hcount hfree

end

theorem machine_serveAll (s : Session) (requests : List ScriptRequest) :
    (requests.foldl serve s).machine =
      requests.foldl (fun m r => (m.serve r).machine) s.machine := by
  induction requests generalizing s with
  | nil => rfl
  | cons r rest ih => exact ih (s.serve r)

theorem host_serveAll (s : Session) (requests : List ScriptRequest) :
    (requests.foldl serve s).host = s.host := by
  induction requests generalizing s with
  | nil => rfl
  | cons r rest ih => exact ih (s.serve r)

/-! ## Turns with and without a slice -/

instance (s : Session) (i : ScriptInstance) : Decidable (s.Runnable i) :=
  match hstate : i.state with
  | .running => isTrue (.inl hstate)
  | .waiting on =>
    if hpending : s.pending on = false then isTrue (.inr ⟨on, hstate, hpending⟩)
    else isFalse (by
      rintro (hrunning | ⟨on', hstate', hpending'⟩)
      · rw [hstate] at hrunning
        cases hrunning
      · rw [hstate] at hstate'
        cases hstate'
        exact hpending hpending')
  | .suspended | .terminating => isFalse (by simp [Runnable, hstate])

/-- The instance under a handle, where it runs a slice in its turn. -/
def slicing? (s : Session) (h : UInt32) : Option ScriptInstance :=
  (s.machine.instances.get? h).filter fun i => s.Runnable i ∧ i.delay = 0

theorem slicing?_eq_some_iff :
    s.slicing? h = some i ↔
      s.machine.instances.get? h = some i ∧ s.Runnable i ∧ i.delay = 0 := by
  simp [slicing?, Option.filter_eq_some_iff]

theorem slicing?_of_none (hi : s.machine.instances.get? h = none) : s.slicing? h = none := by
  rw [slicing?, hi, Option.filter_none]

theorem slicing?_of_some (hi : s.machine.instances.get? h = some i)
    (hheld : ¬ (s.Runnable i ∧ i.delay = 0)) : s.slicing? h = none := by
  rw [slicing?, hi, Option.filter_some_neg (by simpa using hheld)]

theorem play_of_slicing? (hi : s.slicing? h = some i) :
    s.play h = s.slice h { i with state := .running } := by
  obtain ⟨hget, hrunnable, hdelay⟩ := slicing?_eq_some_iff.1 hi
  rw [play_of_runnable hget hrunnable, run_of_no_delay hdelay]

/-- Without a slice the instance is left alone, sits out the turn or is removed. -/
theorem play_of_slicing?_none (hnone : s.slicing? h = none) :
    s.play h = { session := s } ∨ ∃ i, s.machine.instances.get? h = some i ∧
      (s.play h = { session := s.satOut h i } ∨ s.play h = { session := s.ended h i }) := by
  cases hi : s.machine.instances.get? h with
  | none => exact .inl (play_of_none hi)
  | some i =>
      rcases s.held_or_runnable i with hstate | hheld | hrunnable
      · refine .inr ⟨i, rfl, .inr ?_⟩
        rw [play_of_terminating hi hstate, finish_of_some hi]
      · exact .inl (play_of_held hi hheld)
      · have hdelay : i.delay ≠ 0 := by
          intro hdelay
          rw [slicing?_eq_some_iff.2 ⟨hi, hrunnable, hdelay⟩] at hnone
          cases hnone
        refine .inr ⟨i, rfl, .inl ?_⟩
        rw [play_of_runnable hi hrunnable, run_of_delay hi hdelay]

/-- An instance that runs no slice raises no request. -/
theorem requests_of_slicing?_none (hnone : s.slicing? h = none) : (s.play h).requests = [] := by
  rcases play_of_slicing?_none hnone with hplay | ⟨i, _, hplay | hplay⟩
  · rw [hplay]
  · rw [hplay]
  · rw [hplay]

theorem turn_of_play {s' : Session} (hplay : s.play h = { session := s' }) : s.turn h = s' := by
  rw [turn, hplay]
  rfl

theorem turn_of_none (hi : s.machine.instances.get? h = none) : s.turn h = s :=
  turn_of_play (play_of_none hi)

theorem turn_of_terminating (hi : s.machine.instances.get? h = some i)
    (hstate : i.state = .terminating) : s.turn h = s.ended h i := by
  apply turn_of_play
  rw [play_of_terminating hi hstate, finish_of_some hi]

/-- The turn executes no instruction: it changes nothing, takes one off the delay of the instance,
or removes it. -/
def Passes (s : Session) (h : UInt32) : Prop :=
  s.turn h = s ∨ ∃ i, s.machine.instances.get? h = some i ∧
    (s.turn h = s.satOut h i ∨ s.turn h = s.ended h i)

theorem passes_of_slicing?_none (hnone : s.slicing? h = none) : s.Passes h := by
  rcases play_of_slicing?_none hnone with hplay | ⟨i, hi, hplay | hplay⟩
  · exact .inl (turn_of_play hplay)
  · exact .inr ⟨i, hi, .inl (turn_of_play hplay)⟩
  · exact .inr ⟨i, hi, .inr (turn_of_play hplay)⟩

theorem context_serveAll (s : Session) (requests : List ScriptRequest) :
    (requests.foldl serve s).context = s.context := by
  have hmanages : s.machine.Manages (requests.foldl serve s).machine := by
    rw [machine_serveAll]
    exact .foldl Machine.serve_manages requests s.machine
  rw [context, context, hmanages.worldVars, hmanages.mapVars, hmanages.print, hmanages.rng,
    host_serveAll]

/-- A turn that passes leaves host, variables, message and generator alone. -/
theorem Passes.context (hpasses : s.Passes h) : (s.turn h).context = s.context := by
  rcases hpasses with hturn | ⟨i, _, hturn | hturn⟩
  · rw [hturn]
  · rw [hturn]
    rfl
  · rw [hturn]
    rfl

theorem context_finish (s : Session) (h : UInt32) : (s.finish h).context = s.context := by
  unfold finish
  split <;> rfl

/-- A turn with a slice leaves host, variables, message and generator as the slice left them. -/
theorem context_turn (hi : s.slicing? h = some i) : (s.turn h).context =
    { (s.sliced i).context with requests := #[], journal := #[] } := by
  rw [turn, context_serveAll, play_of_slicing? hi, session_slice]
  split
  · rfl
  · rfl
  · rw [context_finish]
    rfl
  · rw [context_finish]
    rfl

/-! ## A turn that faults

The first script waits for the second.  The second asks to suspend the third and to start itself,
and then divides by zero. -/

def faultingImage : List UInt8 :=
  Word.join [0x534341, 88, 82, 2, 1, 10, 81, 3, 0, 10, 80, 2, 0, 3, 1, 3, 0, 17, 1, 56, 9, 1,
    3, 1001, 8, 0, 1002, 20, 0, 1003, 76, 0, 0]

/-- The moment before the turn of the second script. -/
def faulting : Session :=
  turn { machine := ((Machine.new { openScriptDelay := 0 } 0).load 1 faultingImage).report.machine
         host := .new } 1

/-- The first script at that moment. -/
def faultingWaiter : ScriptInstance :=
  { ScriptInstance.new 0 ⟨1, 2, 0, true⟩ .zero .none with
    pc := 4
    state := .waiting (.script 2) }

end Session

end MapScript
