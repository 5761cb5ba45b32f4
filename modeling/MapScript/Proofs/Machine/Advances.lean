import MapScript.Machine.Tick
import MapScript.Proofs.InstanceTable
import MapScript.Proofs.Interpreter.Slices

/-!
# How a machine advances

While a map stays loaded, everything a machine does to its instances is one of
two things: live instances change or are removed, or a fresh instance of a
declared script without a live one is put under the next handle.  `Grows` says
this once, with the number of handles taken; what holds along a run is derived
from it.
-/

namespace MapScript

/-- How a live instance changes: its state and delay are set from outside, where
a wait is never set, or it runs a slice at whose end it lives on. -/
inductive ScriptInstance.Evolves (image : Image) (limit : UInt32) :
    ScriptInstance → ScriptInstance → Prop
  | idle {i : ScriptInstance} (state : ScriptState) (delay : UInt32)
      (hwait : ∀ on, state = .waiting on → state = i.state ∧ delay = i.delay) :
      Evolves image limit i { i with state, delay }
  | slice {i : ScriptInstance} (c : Context) (hdelay : i.delay = 0)
      (hend : (runSlice image limit { i with state := .running } c).ending = .yield) :
      Evolves image limit i (runSlice image limit { i with state := .running } c).inst

theorem ScriptInstance.Evolves.refl {image : Image} {limit : UInt32} (i : ScriptInstance) :
    i.Evolves image limit i :=
  .idle i.state i.delay fun _ _ => ⟨rfl, rfl⟩

namespace InstanceTable

variable {image : Image} {limit : UInt32} {t t' t'' : InstanceTable}

/-- Every instance of the later table evolved from the one under its handle. -/
structure Evolves (image : Image) (limit : UInt32) (t t' : InstanceTable) : Prop where
  next : t'.next = t.next
  get? : ∀ k i', t'.get? k = some i' → ∃ i, t.get? k = some i ∧ i.Evolves image limit i'

/-- The later table comes from the earlier one by changes and by `n` fresh
instances under consecutive handles. -/
inductive Grows (image : Image) (limit : UInt32) (t : InstanceTable) :
    Nat → InstanceTable → Prop
  | refl : Grows image limit t 0 t
  | evolve {n : Nat} {t' t'' : InstanceTable} (h : Grows image limit t n t')
      (hevolves : t'.Evolves image limit t'') : Grows image limit t n t''
  | insert {n : Nat} {t' : InstanceTable} {definition : Nat} {info : ScriptInfo}
      {args : SpecialArgs} {trigger : Trigger} (delay : UInt32) (h : Grows image limit t n t')
      (hdeclared : image.scripts[definition]? = some info)
      (hfree : ∀ k i, t'.get? k = some i → i.number ≠ info.number) :
      Grows image limit t (n + 1)
        (t'.insert { ScriptInstance.new definition info args trigger with delay })

theorem Grows.trans {n n' : Nat} (h : Grows image limit t n t') (h' : Grows image limit t' n' t'') :
    Grows image limit t (n + n') t'' := by
  induction h' with
  | refl => exact h
  | evolve _ hevolves ih => exact ih.evolve hevolves
  | insert delay _ hdeclared hfree ih => exact ih.insert delay hdeclared hfree

theorem Evolves.grows (h : t.Evolves image limit t') : Grows image limit t 0 t' :=
  Grows.refl.evolve h

theorem evolves_modify {h : UInt32} {f : ScriptInstance → ScriptInstance}
    (hf : ∀ i, t.get? h = some i → i.Evolves image limit (f i)) :
    t.Evolves image limit (t.modify h f) := by
  refine ⟨rfl, fun k i' hi' => ?_⟩
  rw [get?_modify] at hi'
  split at hi'
  · rename_i hk
    subst hk
    obtain ⟨i, hi, rfl⟩ := Option.map_eq_some_iff.1 hi'
    exact ⟨i, hi, hf i hi⟩
  · exact ⟨i', hi', .refl i'⟩

theorem evolves_setState (h : UInt32) {state : ScriptState} (hstate : ∀ on, state ≠ .waiting on) :
    t.Evolves image limit (t.setState h state) :=
  evolves_modify fun i _ => .idle state i.delay fun on hon => absurd hon (hstate on)

theorem evolves_wake (awaited : Awaited) : t.Evolves image limit (t.wake awaited) := by
  refine ⟨rfl, fun k i' hi' => ?_⟩
  rw [get?_wake] at hi'
  obtain ⟨i, hi, rfl⟩ := Option.map_eq_some_iff.1 hi'
  refine ⟨i, hi, ?_⟩
  split
  · exact .idle .running i.delay nofun
  · exact .refl i

end InstanceTable

/-- The machine has gone on with the same map, image and configuration, taking
`n` handles. -/
structure Machine.Advances (m : Machine) (n : Nat) (m' : Machine) : Prop where
  config : m'.config = m.config
  image : m'.image = m.image
  map : m'.map = m.map
  limit : m'.print.limit = m.print.limit
  table : InstanceTable.Grows m.image m.config.runawayLimit m.instances n m'.instances

namespace Machine

variable {m m' m'' : Machine}

theorem Advances.refl (m : Machine) : m.Advances 0 m := ⟨rfl, rfl, rfl, rfl, .refl⟩

theorem Advances.trans {n n' : Nat} (h : m.Advances n m') (h' : m'.Advances n' m'') :
    m.Advances (n + n') m'' := by
  have htable := h'.table
  rw [h.config, h.image] at htable
  exact ⟨h'.config.trans h.config, h'.image.trans h.image, h'.map.trans h.map,
    h'.limit.trans h.limit, h.table.trans htable⟩

/-- Only the instance table has changed, and no handle was taken. -/
theorem Advances.of_evolves {t : InstanceTable}
    (h : m.instances.Evolves m.image m.config.runawayLimit t) :
    m.Advances 0 { m with instances := t } :=
  ⟨rfl, rfl, rfl, rfl, h.grows⟩

end Machine

/-! ## Requests -/

/-- The handles a request takes: one where it starts a script. -/
def Reply.handles (r : Reply) : Nat :=
  match r.answer with
  | .ok .started => 1
  | _ => 0

namespace Image

theorem findScript?_eq_some {image : Image} {number : Int32} {definition : Nat}
    {info : ScriptInfo} (h : image.findScript? number = some (definition, info)) :
    image.scripts[definition]? = some info ∧ info.number = number := by
  obtain ⟨index, hindex, h⟩ := Option.bind_eq_some_iff.1 h
  obtain ⟨found, hfound, h⟩ := Option.bind_eq_some_iff.1 h
  cases h
  refine ⟨hfound, ?_⟩
  obtain ⟨hlt, hnumber, _⟩ := List.findIdx?_eq_some_iff_getElem.1 hindex
  rw [List.getElem?_eq_getElem hlt] at hfound
  cases hfound
  simpa using hnumber

end Image

namespace Machine

theorem startHere_advances (m : Machine) (number : Int32) (args : SpecialArgs)
    (trigger : Trigger) :
    m.Advances (m.startHere number args trigger).handles
      (m.startHere number args trigger).machine := by
  unfold startHere
  split
  · exact .refl m
  · rename_i definition info hscript
    obtain ⟨hdeclared, hnumber⟩ := Image.findScript?_eq_some hscript
    split
    · rename_i hfind
      refine ⟨rfl, rfl, rfl, rfl, InstanceTable.Grows.refl.insert 0 hdeclared ?_⟩
      rw [hnumber]
      exact InstanceTable.find?_eq_none_iff.1 hfind
    · rename_i h i hfind
      split
      · exact .of_evolves (InstanceTable.evolves_setState h nofun)
      · exact .refl m

theorem suspendHere_advances (m : Machine) (number : Int32) :
    m.Advances (m.suspendHere number).handles (m.suspendHere number).machine := by
  unfold suspendHere
  split
  · exact .refl m
  · rename_i h i _
    split
    · exact .refl m
    · exact .refl m
    · exact .of_evolves (InstanceTable.evolves_setState h nofun)

theorem terminateHere_advances (m : Machine) (number : Int32) :
    m.Advances (m.terminateHere number).handles (m.terminateHere number).machine := by
  unfold terminateHere
  split
  · exact .refl m
  · rename_i h i _
    split
    · exact .refl m
    · exact .of_evolves (InstanceTable.evolves_setState h nofun)

theorem defer_advances (m : Machine) (action : DeferredAction) :
    m.Advances (m.defer action).handles (m.defer action).machine :=
  ⟨rfl, rfl, rfl, rfl, .refl⟩

theorem start_advances (m : Machine) (number map : Int32) (args : SpecialArgs)
    (trigger : Trigger) :
    m.Advances (m.start number map args trigger).handles
      (m.start number map args trigger).machine := by
  unfold start
  split
  · exact m.defer_advances _
  · exact m.startHere_advances number args trigger

theorem suspend_advances (m : Machine) (number map : Int32) :
    m.Advances (m.suspend number map).handles (m.suspend number map).machine := by
  unfold suspend
  split
  · exact m.defer_advances _
  · exact m.suspendHere_advances number

theorem terminate_advances (m : Machine) (number map : Int32) :
    m.Advances (m.terminate number map).handles (m.terminate number map).machine := by
  unfold terminate
  split
  · exact m.defer_advances _
  · exact m.terminateHere_advances number

theorem serve_advances (m : Machine) (r : ScriptRequest) :
    m.Advances (m.serve r).handles (m.serve r).machine := by
  unfold serve
  cases r.kind with
  | execute => exact m.start_advances ..
  | suspend => exact m.suspend_advances ..
  | terminate => exact m.terminate_advances ..

theorem wake_advances (m : Machine) (awaited : Awaited) : m.Advances 0 (m.wake awaited) :=
  .of_evolves (InstanceTable.evolves_wake awaited)

end Machine

/-! ## Turns and ticks -/

namespace Session

/-- The handles taken while requests are served in order. -/
def requestHandles (s : Session) : List ScriptRequest → Nat
  | [] => 0
  | r :: rest => (s.machine.serve r).handles + (s.serve r).requestHandles rest

/-- The handles taken in the turn of the instance under a handle. -/
def turnHandles (s : Session) (h : UInt32) : Nat :=
  (s.play h).session.requestHandles (s.play h).requests

/-- The handles taken in the turns of several instances. -/
def turnsHandles (s : Session) : List UInt32 → Nat
  | [] => 0
  | h :: rest => s.turnHandles h + (s.turn h).turnsHandles rest

/-- The handles taken in a tick. -/
def tickHandles (s : Session) : Nat := s.turnsHandles s.machine.instances.handles

theorem serveAll_advances (s : Session) (requests : List ScriptRequest) :
    s.machine.Advances (s.requestHandles requests) (requests.foldl serve s).machine := by
  induction requests generalizing s with
  | nil => exact .refl s.machine
  | cons r rest ih => exact (s.machine.serve_advances r).trans (ih (s.serve r))

/-- What is live after an instance has ended was live before, and is not it. -/
theorem get?_finish {s : Session} {h k : UInt32} {i' : ScriptInstance} {image : Image}
    {limit : UInt32} (hi' : (s.finish h).machine.instances.get? k = some i') :
    k ≠ h ∧ ∃ i, s.machine.instances.get? k = some i ∧ i.Evolves image limit i' := by
  unfold finish at hi'
  split at hi'
  · rename_i hnone
    refine ⟨?_, i', hi', .refl i'⟩
    rintro rfl
    rw [hnone] at hi'
    cases hi'
  · rename_i i hi
    have hwake : (s.machine.instances.remove h).Evolves image limit
        ((s.machine.instances.remove h).wake (.script i.number)) :=
      InstanceTable.evolves_wake (.script i.number)
    obtain ⟨j, hj, hevolves⟩ := hwake.get? k i' hi'
    rw [InstanceTable.get?_remove] at hj
    split at hj
    · cases hj
    · rename_i hk
      exact ⟨hk, j, hj, hevolves⟩

theorem next_finish (s : Session) (h : UInt32) :
    (s.finish h).machine.instances.next = s.machine.instances.next := by
  unfold finish
  split <;> rfl

theorem finish_advances (s : Session) (h : UInt32) :
    s.machine.Advances 0 (s.finish h).machine := by
  have hevolves : s.machine.instances.Evolves s.machine.image s.machine.config.runawayLimit
      (s.finish h).machine.instances :=
    ⟨s.next_finish h, fun k i' hi' => (get?_finish hi').2⟩
  unfold finish at hevolves ⊢
  split
  · exact .refl s.machine
  · rename_i i hi
    rw [hi] at hevolves
    exact .of_evolves hevolves

@[simp] theorem machine_finish_note (s : Session) (n : Notice) (h : UInt32) :
    ((s.note n).finish h).machine = (s.finish h).machine := by
  simp only [finish, note]
  split <;> rfl

/-- An instance that ends with its slice leaves the other instances alone. -/
theorem finish_absorb_advances (s : Session) (h : UInt32) {r : Stepped}
    (hlimit : r.context.print.limit = s.machine.print.limit) :
    s.machine.Advances 0 ((s.absorb h r).finish h).machine := by
  have hfinish := (s.absorb h r).finish_advances h
  refine ⟨hfinish.config, hfinish.image, hfinish.map, hfinish.limit.trans hlimit, ?_⟩
  apply InstanceTable.Evolves.grows
  refine ⟨next_finish _ h, fun k i' hi' => ?_⟩
  obtain ⟨hk, i, hi, hevolves⟩ := get?_finish hi'
  refine ⟨i, ?_, hevolves⟩
  have hget := s.machine.instances.get?_modify h k fun _ => r.inst
  rw [if_neg hk] at hget
  rw [← hget]
  exact hi

theorem slice_advances {s : Session} {h : UInt32} {i : ScriptInstance}
    (hi : s.machine.instances.get? h = some i) (hdelay : i.delay = 0) :
    s.machine.Advances 0 (s.slice h { i with state := .running }).session.machine := by
  have hlimit := limit_runSlice s.machine.image s.machine.config.runawayLimit
    { i with state := .running } s.context
  have hcontinue := runSlice_ending s.machine.image s.machine.config.runawayLimit
    { i with state := .running } s.context
  simp only [slice]
  split
  · rename_i hend
    exact absurd hend hcontinue
  · rename_i hend
    -- the slice is over and the instance lives on
    refine ⟨rfl, rfl, rfl, hlimit, InstanceTable.Evolves.grows ?_⟩
    apply InstanceTable.evolves_modify
    intro j hj
    rw [hi] at hj
    cases hj
    exact .slice s.context hdelay hend
  · exact finish_absorb_advances s h hlimit
  · rw [machine_finish_note]
    exact finish_absorb_advances s h hlimit

theorem run_advances {s : Session} {h : UInt32} {i : ScriptInstance}
    (hi : s.machine.instances.get? h = some i) :
    s.machine.Advances 0 (s.run h i).session.machine := by
  unfold run
  split
  · rename_i hdelay
    exact slice_advances hi hdelay
  · exact .of_evolves (InstanceTable.evolves_modify fun j _ => .idle .running (j.delay - 1) nofun)

/-- An instance takes no handle in its part of a turn. -/
theorem play_advances (s : Session) (h : UInt32) :
    s.machine.Advances 0 (s.play h).session.machine := by
  unfold play
  split
  · exact .refl s.machine
  · rename_i i hi
    split
    · exact s.finish_advances h
    · exact .refl s.machine
    · exact run_advances hi
    · split
      · exact .refl s.machine
      · exact run_advances hi

theorem turn_advances (s : Session) (h : UInt32) :
    s.machine.Advances (s.turnHandles h) (s.turn h).machine := by
  have h1 := s.play_advances h
  have h2 := (s.play h).session.serveAll_advances (s.play h).requests
  rw [turnHandles, ← Nat.zero_add (requestHandles _ _)]
  exact h1.trans h2

theorem turns_advances (s : Session) (handles : List UInt32) :
    s.machine.Advances (s.turnsHandles handles) (handles.foldl turn s).machine := by
  induction handles generalizing s with
  | nil => exact .refl s.machine
  | cons h rest ih => exact (s.turn_advances h).trans (ih (s.turn h))

theorem tick_advances (s : Session) : s.machine.Advances s.tickHandles s.tick.machine :=
  s.turns_advances s.machine.instances.handles

end Session

end MapScript
