import MapScript.Proofs.Machine.Loads
import MapScript.Proofs.Machine.Snapshots

/-!
# Runs of a machine

A run is a list of operations on a new machine, in any order and with any
arguments.  The main statement is `wellFormed_after`: along every run the live
instances are well-formed, so that no slice of a tick ever looks for an
instruction where there is none.
-/

namespace MapScript

/-- What can be done with a machine. -/
inductive Operation where
  | load (map : Int32) (bytes : List UInt8)
  | start (number map : Int32) (args : SpecialArgs) (trigger : Trigger)
  | suspend (number map : Int32)
  | terminate (number map : Int32)
  | tick (host : Host)
  | tagFinished (tag : Int32)
  | polyFinished (poly : Int32)
  | newGame
  /-- Takes back a snapshot on the image in the given bytes. -/
  | restore (bytes : List UInt8) (s : Snapshot)

/-- What comes back from an operation. -/
inductive Answer where
  | done
  | loaded (refused : Option ImageError)
  | replied (answer : Except RequestError Outcome)
  | ticked (host : Host)
  | restored (refused : Option RestoreError)
  | unreadable (cause : ImageError)

/-- An answer with the machine after the operation and what was reported. -/
structure Performed where
  answer : Answer
  machine : Machine
  journal : Journal := #[]

namespace Machine

def perform (m : Machine) : Operation → Performed
  | .load map bytes =>
    let l := m.load map bytes
    ⟨.loaded l.refused, l.report.machine, l.report.journal⟩
  | .start number map args trigger =>
    let r := m.start number map args trigger
    ⟨.replied r.answer, r.machine, r.journal⟩
  | .suspend number map =>
    let r := m.suspend number map
    ⟨.replied r.answer, r.machine, r.journal⟩
  | .terminate number map =>
    let r := m.terminate number map
    ⟨.replied r.answer, r.machine, r.journal⟩
  | .tick host =>
    let s := Session.tick { machine := m, host }
    ⟨.ticked s.host, s.machine, s.journal⟩
  | .tagFinished tag => ⟨.done, m.tagFinished tag, #[]⟩
  | .polyFinished poly => ⟨.done, m.polyFinished poly, #[]⟩
  | .newGame => ⟨.done, m.newGame, #[]⟩
  | .restore bytes s =>
    match Image.parse bytes with
    | .error cause => ⟨.unreadable cause, m, #[]⟩
    | .ok image =>
      match m.restore image s with
      | .error cause => ⟨.restored (some cause), m, #[]⟩
      | .ok (m', journal) => ⟨.restored none, m', journal⟩

def after (m : Machine) (ops : List Operation) : Machine :=
  ops.foldl (fun m op => (m.perform op).machine) m

/-- What a property of machines needs to hold along every run. -/
theorem after_induction {P : Machine → Prop} (hstep : ∀ m op, P m → P (m.perform op).machine)
    {m : Machine} (hm : P m) (ops : List Operation) : P (m.after ops) := by
  induction ops generalizing m with
  | nil => exact hm
  | cons op ops ih => exact ih (hstep m op hm)

def handlesFor (m : Machine) : Operation → Nat
  | .load map bytes => m.enterHandles map (loadedImage bytes)
  | .start number map args trigger => (m.start number map args trigger).handles
  | .suspend number map => (m.suspend number map).handles
  | .terminate number map => (m.terminate number map).handles
  | .tick host => Session.tickHandles { machine := m, host }
  | .tagFinished _ | .polyFinished _ | .newGame | .restore _ _ => 0

/-- What an operation can do: go on with the loaded map, leave it for another and
go on there, start the game anew, or take back a snapshot that fits. -/
inductive Moves (m : Machine) (n : Nat) : Machine → Prop
  | advance {m' : Machine} (h : m.Advances n m') : Moves m n m'
  | enter {m' : Machine} {map : Int32} {image : Image} (himage : image.Sound)
      (h : (m.reset map image).Advances n m') : Moves m n m'
  | anew : Moves m n m.newGame
  | restore {image : Image} {s : Snapshot} (himage : image.Sound) (hfresh : s.instances.Fresh)
      (htable : s.instances.WellFormed image) : Moves m n (m.restored image s)

theorem perform_moves (m : Machine) (op : Operation) :
    m.Moves (m.handlesFor op) (m.perform op).machine := by
  cases op with
  | load map bytes =>
      simp only [perform]
      rw [machine_load]
      exact .enter (sound_loadedImage bytes) (enter_advances m map (sound_loadedImage bytes))
  | start number map args trigger => exact .advance (m.start_advances number map args trigger)
  | suspend number map => exact .advance (m.suspend_advances number map)
  | terminate number map => exact .advance (m.terminate_advances number map)
  | tick host => exact .advance (Session.tick_advances { machine := m, host })
  | tagFinished tag => exact .advance (m.wake_advances (.tag tag))
  | polyFinished poly => exact .advance (m.wake_advances (.poly poly))
  | newGame => exact .anew
  | restore bytes s =>
      simp only [perform]
      split
      · exact .advance (.refl m)
      · rename_i image hparse
        split
        · exact .advance (.refl m)
        · rename_i m' journal hrestore
          obtain ⟨hfresh, htable, rfl, _⟩ := restore_eq_ok_iff.1 hrestore
          exact .restore (Image.sound_of_parse hparse) hfresh htable

/-! ## Well-formed machines -/

structure WellFormed (m : Machine) : Prop where
  image : m.image.Sound
  table : m.instances.WellFormed m.image

theorem wellFormed_new (config : Config) (entropy : Generator) : (new config entropy).WellFormed :=
  ⟨Image.sound_empty, .of_get?_eq_none fun _ => rfl⟩

theorem WellFormed.advance {m m' : Machine} {n : Nat} (hm : m.WellFormed)
    (h : m.Advances n m') : m'.WellFormed := by
  refine ⟨?_, ?_⟩
  · rw [h.image]
    exact hm.image
  · rw [h.image]
    exact hm.table.grow hm.image h.table

theorem WellFormed.move {m m' : Machine} {n : Nat} (hm : m.WellFormed) (h : m.Moves n m') :
    m'.WellFormed := by
  cases h with
  | advance h => exact hm.advance h
  | @enter _ map image himage h =>
      have hreset : (m.reset map image).WellFormed := ⟨himage, .of_get?_eq_none fun _ => rfl⟩
      exact hreset.advance h
  | anew => exact ⟨hm.image, .of_get?_eq_none fun _ => rfl⟩
  | restore himage _ htable => exact ⟨himage, htable⟩

theorem wellFormed_after_new (config : Config) (entropy : Generator) (ops : List Operation) :
    ((new config entropy).after ops).WellFormed :=
  after_induction (fun m op hm => hm.move (m.perform_moves op)) (wellFormed_new config entropy) ops

/-- Along every run of operations, each live instance belongs to the script of
its number that the image declares, stands at an instruction of the image and has
at most 32 operands, and no number is live twice.  So in no tick of a run does a
slice end because there is no instruction where the instance stands. -/
theorem wellFormed_after (config : Config) (entropy : Generator) (ops : List Operation) :
    let m := (new config entropy).after ops
    (∀ h i, m.instances.get? h = some i →
      (∃ info, m.image.scripts[i.definition]? = some info ∧ info.number = i.number) ∧
      (∃ d, m.image.program.fetch i.pc = some d) ∧
      i.stack.toList.length ≤ 32) ∧
    (∀ h h' i i', m.instances.get? h = some i → m.instances.get? h' = some i' → h ≠ h' →
      i.number ≠ i'.number) ∧
    ∀ host played h rest, m.instances.handles = played ++ h :: rest →
      let s := played.foldl Session.turn { machine := m, host }
      ∀ i, s.machine.instances.get? h = some i → ∀ pc,
        (runSlice s.machine.image s.machine.config.runawayLimit { i with state := .running }
          s.context).ending ≠ .fault (.badInstructionPointer pc) := by
  intro m
  have hm : m.WellFormed := wellFormed_after_new config entropy ops
  refine ⟨fun h i hi => ?_, fun h h' i i' hi hi' hne hnumber => ?_, ?_⟩
  · have hinstance := hm.table.instances h i hi
    refine ⟨hinstance.declared, Option.isSome_iff_exists.1 hinstance.boundary, ?_⟩
    rw [OperandStack.toList, List.length_reverse]
    exact hinstance.stack
  · exact hne (hm.table.unique h h' i i' hi hi' hnumber)
  · intro host played h rest _ s i hi pc hfault
    have hs : s.machine.WellFormed :=
      hm.advance (Session.turns_advances { machine := m, host } played)
    have hinstance := hs.table.instances h i hi
    have hrunning : ScriptInstance.WellFormed s.machine.image { i with state := .running } :=
      hinstance.of_eq rfl rfl hinstance.boundary hinstance.stack
    exact (runSlice_wellFormed hs.image _ hrunning).inCode _ hfault pc rfl

/-! ## Handles along a run -/

/-- No operation of the list takes a handle with which the counter starts over. -/
def CountsOn (m : Machine) : List Operation → Prop
  | [] => True
  | op :: ops => m.instances.next.toNat + m.handlesFor op < UInt32.size ∧
      (m.perform op).machine.CountsOn ops

instance decidableCountsOn : (m : Machine) → (ops : List Operation) → Decidable (m.CountsOn ops)
  | _, [] => isTrue trivial
  | m, op :: ops =>
    have := decidableCountsOn (m.perform op).machine ops
    inferInstanceAs (Decidable (_ ∧ _))

theorem fresh_of_get?_eq_none {t : InstanceTable} (h : ∀ k, t.get? k = none) : t.Fresh := by
  intro k i hi
  rw [h k] at hi
  cases hi

theorem Moves.fresh {m m' : Machine} {n : Nat} (h : m.Moves n m') (hm : m.instances.Fresh)
    (hcount : m.instances.next.toNat + n < UInt32.size) : m'.instances.Fresh := by
  cases h with
  | advance h => exact hm.grow h.table hcount
  | @enter _ map image _ h =>
      have hreset : (m.reset map image).instances.Fresh := fresh_of_get?_eq_none fun _ => rfl
      exact hreset.grow h.table hcount
  | anew => exact fresh_of_get?_eq_none fun _ => rfl
  | restore _ hfresh _ => exact hfresh

/-- As long as the counter does not start over, it stays above every live handle. -/
theorem fresh_after {m : Machine} {ops : List Operation} (hm : m.instances.Fresh)
    (hcount : m.CountsOn ops) : (m.after ops).instances.Fresh := by
  induction ops generalizing m with
  | nil => exact hm
  | cons op ops ih => exact ih ((m.perform_moves op).fresh hm hcount.1) hcount.2

/-! ## The bound of the print buffer along a run -/

def PrintLimited (m : Machine) : Prop := m.print.limit = m.config.printBufferLimit

theorem Moves.printLimited {m m' : Machine} {n : Nat} (h : m.Moves n m') (hm : m.PrintLimited) :
    m'.PrintLimited := by
  cases h with
  | advance h =>
      rw [PrintLimited, h.limit, h.config]
      exact hm
  | enter _ h =>
      rw [PrintLimited, h.limit, h.config]
      exact hm
  | anew => exact hm
  | restore _ _ _ => exact hm

theorem printLimited_after (config : Config) (entropy : Generator) (ops : List Operation) :
    ((new config entropy).after ops).PrintLimited := by
  have hnew : (new config entropy).PrintLimited := rfl
  exact after_induction (fun m op hm => (m.perform_moves op).printLimited hm) hnew ops

end Machine

end MapScript
