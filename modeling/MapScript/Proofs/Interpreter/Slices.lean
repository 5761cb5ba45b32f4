import MapScript.Interpreter.Step
import MapScript.Proofs.Image.Tables
import MapScript.Proofs.Interpreter.Effects

/-!
# Instances that stand at an instruction

What a step and a slice keep of an instance: it belongs to a script the image
declares, it stands at an instruction, and its operands are within the bound.
-/

namespace MapScript

/-- The instance runs a script of the image and stands at one of its
instructions, with no more operands than fit. -/
structure ScriptInstance.WellFormed (image : Image) (i : ScriptInstance) : Prop where
  declared : ∃ info, image.scripts[i.definition]? = some info ∧ info.number = i.number
  boundary : image.program.isBoundary i.pc = true
  stack : i.stack.cells.length ≤ OperandStack.depth

/-- What is left after a step or a slice of a well-formed instance: the instance
is of the same script and, where it lives on, well-formed; and no fault says that
the instance stood at no instruction. -/
structure Stepped.WellFormed (image : Image) (i : ScriptInstance) (r : Stepped) : Prop where
  number : r.inst.number = i.number
  definition : r.inst.definition = i.definition
  lives : r.ending = .continue ∨ r.ending = .yield → r.inst.WellFormed image
  inCode : ∀ f, r.ending = .fault f → f.InCode

variable {image : Image}

/-- Neither the state nor the variables nor the delay of an instance matter. -/
theorem ScriptInstance.WellFormed.of_eq {i j : ScriptInstance} (hi : i.WellFormed image)
    (hnumber : j.number = i.number) (hdefinition : j.definition = i.definition)
    (hboundary : image.program.isBoundary j.pc = true)
    (hstack : j.stack.cells.length ≤ OperandStack.depth) : j.WellFormed image := by
  refine ⟨?_, hboundary, hstack⟩
  rw [hnumber, hdefinition]
  exact hi.declared

theorem OperandStack.length_push {s s' : OperandStack} {value : Int32}
    (h : s.push value = .ok s') : s'.cells.length ≤ depth := by
  unfold OperandStack.push at h
  split at h
  · rename_i hroom
    cases h
    exact hroom
  · cases h

theorem OperandStack.push_error {s : OperandStack} {value : Int32} {f : Fault}
    (h : s.push value = .error f) : f = .stackOverflow := by
  unfold OperandStack.push at h
  split at h
  · cases h
  · cases h
    rfl

theorem pushResult_wellFormed {i : ScriptInstance} {c : Context} {next : Nat} (value : Int32)
    (hi : i.WellFormed image) (hnext : image.program.isBoundary next = true) :
    (pushResult next value i c).WellFormed image i := by
  unfold pushResult
  cases hpush : i.stack.push value with
  | ok stack =>
      refine ⟨rfl, rfl, fun _ => ?_, nofun⟩
      exact hi.of_eq rfl rfl hnext (OperandStack.length_push hpush)
  | error f =>
      refine ⟨rfl, rfl, nofun, ?_⟩
      intro f' hf'
      cases hf'
      rw [OperandStack.push_error hpush]
      exact nofun

/-- Doing what an instruction of a sound image may do keeps the instance
well-formed. -/
theorem Effect.perform_wellFormed {i : ScriptInstance} {c : Context} {d : Decoded}
    {effect : Effect} {pc : Nat} (himage : image.Sound) (hi : i.WellFormed image)
    (hd : image.program.fetch pc = some d) (hallowed : effect.Allowed image i d.instruction) :
    (effect.perform d.next i c).WellFormed image i := by
  have hnext : d.instruction.fallsThrough = true → image.program.isBoundary d.next = true :=
    himage.closed.next pc d hd
  have hmoved : ∀ j : ScriptInstance, j.number = i.number → j.definition = i.definition →
      j.stack = i.stack → image.program.isBoundary j.pc = true → j.WellFormed image :=
    fun j hnumber hdefinition hstack hboundary =>
      hi.of_eq hnumber hdefinition hboundary (by rw [hstack]; exact hi.stack)
  cases effect with
  | nothing => exact ⟨rfl, rfl, fun _ => hmoved _ rfl rfl rfl (hnext hallowed), nofun⟩
  | push value => exact pushResult_wellFormed value hi (hnext hallowed)
  | draw min max => exact pushResult_wellFormed _ hi (hnext hallowed)
  | store scope index value =>
      cases scope <;> exact ⟨rfl, rfl, fun _ => hmoved _ rfl rfl rfl (hnext hallowed), nofun⟩
  | jump target =>
      refine ⟨rfl, rfl, fun _ => hmoved _ rfl rfl rfl ?_, nofun⟩
      rcases hallowed with htarget | ⟨info, hinfo, rfl⟩
      · exact himage.closed.target pc d target hd htarget
      · exact himage.entries info (List.mem_of_getElem? hinfo)
  | terminate => exact ⟨rfl, rfl, by simp [Effect.perform], nofun⟩
  | sleep ticks => exact ⟨rfl, rfl, fun _ => hmoved _ rfl rfl rfl (hnext hallowed), nofun⟩
  | await state => exact ⟨rfl, rfl, fun _ => hmoved _ rfl rfl rfl (hnext hallowed), nofun⟩
  | emit event => exact ⟨rfl, rfl, fun _ => hmoved _ rfl rfl rfl (hnext hallowed), nofun⟩
  | request r => exact ⟨rfl, rfl, fun _ => hmoved _ rfl rfl rfl (hnext hallowed), nofun⟩
  | clearPrint => exact ⟨rfl, rfl, fun _ => hmoved _ rfl rfl rfl (hnext hallowed), nofun⟩
  | print text => exact ⟨rfl, rfl, fun _ => hmoved _ rfl rfl rfl (hnext hallowed), nofun⟩

/-- One instruction. -/
theorem step_wellFormed {i : ScriptInstance} {c : Context} (himage : image.Sound)
    (hi : i.WellFormed image) : (step image i c).WellFormed image i := by
  obtain ⟨d, hd⟩ := Option.isSome_iff_exists.1 hi.boundary
  obtain ⟨info, hinfo, _⟩ := hi.declared
  have hobeys := d.instruction.effect_obeys (c := c) hinfo i.stack
  unfold step
  rw [hd]
  simp only
  cases heffect : d.instruction.effect image i c i.stack with
  | error f stack =>
      rw [heffect] at hobeys
      refine ⟨rfl, rfl, nofun, ?_⟩
      intro f' hf'
      cases hf'
      exact hobeys.2
  | ok effect stack =>
      rw [heffect] at hobeys
      have hi' : ScriptInstance.WellFormed image { i with stack } :=
        hi.of_eq rfl rfl hi.boundary (Nat.le_trans hobeys.1.length_le hi.stack)
      have h := Effect.perform_wellFormed (c := c) himage hi' hd hobeys.2
      exact ⟨h.number, h.definition, h.lives, h.inCode⟩

theorem sliceFrom_wellFormed (himage : image.Sound) (limit : UInt32) (fuel : Nat)
    {i : ScriptInstance} {c : Context} (hi : i.WellFormed image) :
    (sliceFrom image limit fuel i c).WellFormed image i := by
  induction fuel generalizing i c with
  | zero =>
      refine ⟨rfl, rfl, nofun, ?_⟩
      intro f hf
      cases hf
      exact nofun
  | succ fuel ih =>
      have hstep := step_wellFormed (c := c) himage hi
      simp only [sliceFrom]
      split
      · rename_i hend
        have h := ih (c := (step image i c).context) (hstep.lives (.inl hend))
        exact ⟨h.number.trans hstep.number, h.definition.trans hstep.definition, h.lives, h.inCode⟩
      · exact hstep

/-- A whole slice, whatever its limit. -/
theorem runSlice_wellFormed (himage : image.Sound) (limit : UInt32) {i : ScriptInstance}
    {c : Context} (hi : i.WellFormed image) :
    (runSlice image limit i c).WellFormed image i :=
  sliceFrom_wellFormed himage limit limit.toNat hi

/-! ## What no slice does -/

/-- A slice does not stop while it could go on. -/
theorem runSlice_ending (image : Image) (limit : UInt32) (i : ScriptInstance) (c : Context) :
    (runSlice image limit i c).ending ≠ .continue := by
  unfold runSlice
  generalize limit.toNat = fuel
  induction fuel generalizing i c with
  | zero => exact nofun
  | succ fuel ih =>
      simp only [sliceFrom]
      split
      · exact ih _ _
      · rename_i hend
        exact hend

/-- What a step or a slice leaves of an instance, in whatever image it runs: its script, its trigger
and, unless it gives up its turn, its state and its delay; one of these it leaves even then. -/
structure Stepped.Keeps (i : ScriptInstance) (r : Stepped) : Prop where
  number : r.inst.number = i.number
  trigger : r.inst.trigger = i.trigger
  steady : r.ending ≠ .yield → r.inst.state = i.state ∧ r.inst.delay = i.delay
  pause : r.inst.state = i.state ∨ r.inst.delay = i.delay

theorem pushResult_keeps (next : Nat) (value : Int32) (i : ScriptInstance) (c : Context) :
    (pushResult next value i c).Keeps i := by
  unfold pushResult
  split <;> exact ⟨rfl, rfl, fun _ => ⟨rfl, rfl⟩, .inl rfl⟩

theorem Effect.perform_keeps (effect : Effect) (next : Nat) (i : ScriptInstance) (c : Context) :
    (effect.perform next i c).Keeps i := by
  cases effect with
  | push value => exact pushResult_keeps next value i c
  | draw min max => exact pushResult_keeps next _ i _
  | store scope index value =>
      cases scope <;> exact ⟨rfl, rfl, fun _ => ⟨rfl, rfl⟩, .inl rfl⟩
  -- the two effects that give up the turn write one field each
  | sleep ticks => exact ⟨rfl, rfl, fun hend => absurd rfl hend, .inl rfl⟩
  | await state => exact ⟨rfl, rfl, fun hend => absurd rfl hend, .inr rfl⟩
  | _ => exact ⟨rfl, rfl, fun _ => ⟨rfl, rfl⟩, .inl rfl⟩

theorem step_keeps (image : Image) (i : ScriptInstance) (c : Context) :
    (step image i c).Keeps i := by
  unfold step
  split
  · exact ⟨rfl, rfl, fun _ => ⟨rfl, rfl⟩, .inl rfl⟩
  · rename_i d hd
    split
    · rename_i effect stack heffect
      have h := effect.perform_keeps d.next { i with stack } c
      exact ⟨h.number, h.trigger, h.steady, h.pause⟩
    · exact ⟨rfl, rfl, fun _ => ⟨rfl, rfl⟩, .inl rfl⟩

theorem runSlice_keeps (image : Image) (limit : UInt32) (i : ScriptInstance) (c : Context) :
    (runSlice image limit i c).Keeps i := by
  unfold runSlice
  generalize limit.toNat = fuel
  induction fuel generalizing i c with
  | zero => exact ⟨rfl, rfl, fun _ => ⟨rfl, rfl⟩, .inl rfl⟩
  | succ fuel ih =>
      have hstep := step_keeps image i c
      simp only [sliceFrom]
      split
      · rename_i hend
        -- a step that goes on leaves state and delay to the rest of the slice
        obtain ⟨hstate, hdelay⟩ := hstep.steady (by rw [hend]; exact nofun)
        have hrest := ih (step image i c).inst (step image i c).context
        refine ⟨hrest.number.trans hstep.number, hrest.trigger.trans hstep.trigger,
          fun hsteady => ?_, hrest.pause.imp (·.trans hstate) (·.trans hdelay)⟩
        exact ⟨(hrest.steady hsteady).1.trans hstate, (hrest.steady hsteady).2.trans hdelay⟩
      · exact hstep

theorem number_runSlice (image : Image) (limit : UInt32) (i : ScriptInstance) (c : Context) :
    (runSlice image limit i c).inst.number = i.number :=
  (runSlice_keeps image limit i c).number

theorem PrintBuffer.limit_append (b : PrintBuffer) (text : String) :
    (b.append text).1.limit = b.limit := by
  unfold PrintBuffer.append
  generalize text.toList = cs
  induction cs generalizing b with
  | nil => rfl
  | cons c cs ih =>
      rw [PrintBuffer.appendChars]
      split
      · exact ih (b.push c)
      · rfl

theorem context_pushResult (next : Nat) (value : Int32) (i : ScriptInstance) (c : Context) :
    (pushResult next value i c).context = c := by
  unfold pushResult
  split <;> rfl

theorem Effect.limit_perform (effect : Effect) (next : Nat) (i : ScriptInstance) (c : Context) :
    (effect.perform next i c).context.print.limit = c.print.limit := by
  cases effect with
  | push value => rw [Effect.perform, context_pushResult]
  | draw min max => simp only [Effect.perform, context_pushResult]
  | store scope index value => cases scope <;> rfl
  | print text => exact c.print.limit_append text
  | _ => rfl

theorem limit_step (image : Image) (i : ScriptInstance) (c : Context) :
    (step image i c).context.print.limit = c.print.limit := by
  unfold step
  split
  · rfl
  · split
    · exact Effect.limit_perform _ _ _ _
    · rfl

/-- The bound of the print buffer stays as it was configured. -/
theorem limit_runSlice (image : Image) (limit : UInt32) (i : ScriptInstance) (c : Context) :
    (runSlice image limit i c).context.print.limit = c.print.limit := by
  unfold runSlice
  generalize limit.toNat = fuel
  induction fuel generalizing i c with
  | zero => rfl
  | succ fuel ih =>
      simp only [sliceFrom]
      split
      · rw [ih, limit_step]
      · exact limit_step image i c

end MapScript
