import MapScript.Interpreter.Step
import MapScript.Proofs.Interpreter.Kinds

/-!
# Steps that fault

Two things can go wrong in a step: an operand is missing or wrong, before anything is done, or the
result finds no room.  Either way the step has changed nothing but operands, with one exception: a
draw between two bounds in the code moves the generator before its result finds no room.  A draw
between two bounds on the stack has made that room itself.
-/

namespace MapScript

theorem OperandStack.full_of_push_error {s : OperandStack} {value : Int32} {f : Fault}
    (h : s.push value = .error f) : depth ≤ s.cells.length := by
  unfold OperandStack.push at h
  split at h
  · cases h
  · rename_i hfull
    exact Nat.le_of_not_lt hfull

theorem pushResult_fault {next : Nat} {value : Int32} {i : ScriptInstance} {c : Context} {f : Fault}
    (h : (pushResult next value i c).ending = .fault f) :
    (pushResult next value i c).inst = i ∧ (pushResult next value i c).context = c ∧
      OperandStack.depth ≤ i.stack.cells.length := by
  unfold pushResult at h ⊢
  cases hpush : i.stack.push value with
  | ok stack =>
      rw [hpush] at h
      cases h
  | error fault => exact ⟨rfl, rfl, OperandStack.full_of_push_error hpush⟩

namespace Effect

/-- An effect faults only where it has a result that finds no room. -/
theorem perform_fault {effect : Effect} {next : Nat} {i : ScriptInstance} {c : Context} {f : Fault}
    (h : (effect.perform next i c).ending = .fault f) :
    (effect.perform next i c).inst = i ∧ OperandStack.depth ≤ i.stack.cells.length ∧
      ((effect.perform next i c).context = c ∨ effect.kind = .draw ∧
        ∃ rng, (effect.perform next i c).context = { c with rng }) := by
  cases effect with
  | push value =>
      obtain ⟨hinst, hcontext, hfull⟩ := pushResult_fault h
      exact ⟨hinst, hfull, .inl hcontext⟩
  | draw min max =>
      obtain ⟨hinst, hcontext, hfull⟩ := pushResult_fault h
      exact ⟨hinst, hfull, .inr ⟨rfl, _, hcontext⟩⟩
  | store scope index value => cases scope <;> cases h
  | _ => cases h

end Effect

namespace Instruction

theorem eq_of_draw_mem_kinds {instruction : Instruction} (h : .draw ∈ instruction.kinds) :
    instruction = .random ∨ ∃ min max, instruction = .randomDirect min max := by
  cases instruction with
  | random => exact .inl rfl
  | randomDirect min max => exact .inr ⟨min, max, rfl⟩
  | «variable» op scope index =>
      by_cases hop : op = .push <;> simp [kinds, hop] at h
  | _ => simp [kinds] at h

/-- The two bounds have left the stack. -/
theorem length_of_random {image : Image} {i : ScriptInstance} {c : Context} {s s' : OperandStack}
    {effect : Effect} (h : random.effect image i c s = .ok effect s') :
    s'.cells.length + 2 = s.cells.length := by
  obtain ⟨cells⟩ := s
  rcases cells with _ | ⟨max, _ | ⟨min, rest⟩⟩
  · cases h
  · cases h
  · cases h
    rfl

/-- A draw that finds no room is one between two bounds in the code. -/
theorem randomDirect_of_full {instruction : Instruction} {image : Image} {i : ScriptInstance}
    {c : Context} {s s' : OperandStack} {effect : Effect}
    (heffect : instruction.effect image i c s = .ok effect s') (hdraw : effect.kind = .draw)
    (hs : s.cells.length ≤ OperandStack.depth) (hfull : OperandStack.depth ≤ s'.cells.length) :
    ∃ min max, instruction = .randomDirect min max := by
  have hmem := (of_effect_ok heffect).2
  rw [hdraw] at hmem
  obtain rfl | hdirect := eq_of_draw_mem_kinds hmem
  · have hlength := length_of_random heffect
    omega
  · exact hdirect

end Instruction

/-- A step that faults has changed nothing but the operand stack, from whose end operands may be
missing; and the generator, if it stood at a draw between two bounds in the code. -/
theorem step_fault_keeps (image : Image) (i : ScriptInstance) (c : Context) {f : Fault}
    (hstack : i.stack.cells.length ≤ OperandStack.depth)
    (hfault : (step image i c).ending = .fault f) :
    (step image i c).inst = { i with stack := (step image i c).inst.stack } ∧
    (step image i c).inst.stack.toList <+: i.stack.toList ∧
    (step image i c).context = { c with rng := (step image i c).context.rng } ∧
    ((step image i c).context.rng = c.rng ∨
      ∃ d min max, image.program.fetch i.pc = some d ∧ d.instruction = .randomDirect min max) := by
  cases hfetch : image.program.fetch i.pc with
  | none =>
      have hstep : step image i c = ⟨.fault (.badInstructionPointer i.pc), i, c⟩ := by
        rw [step, hfetch]
      rw [hstep]
      exact ⟨rfl, List.prefix_refl _, rfl, .inl rfl⟩
  | some d =>
      cases heffect : d.instruction.effect image i c i.stack with
      | error fault stack =>
          have hstep : step image i c = ⟨.fault fault, { i with stack }, c⟩ := by
            simp only [step, hfetch, heffect]
          have htaken := Instruction.suffix_of_effect_error heffect
          rw [hstep]
          exact ⟨rfl, List.reverse_prefix.2 htaken, rfl, .inl rfl⟩
      | ok effect stack =>
          have hstep : step image i c = effect.perform d.next { i with stack } c := by
            simp only [step, hfetch, heffect]
          have htaken := (Instruction.of_effect_ok heffect).1
          rw [hstep] at hfault ⊢
          obtain ⟨hinst, hfull, hcontext⟩ := Effect.perform_fault hfault
          rw [hinst]
          refine ⟨rfl, List.reverse_prefix.2 htaken, ?_⟩
          obtain hcontext | ⟨hdraw, rng, hcontext⟩ := hcontext
          · rw [hcontext]
            exact ⟨rfl, .inl rfl⟩
          · rw [hcontext]
            obtain ⟨min, max, hdirect⟩ :=
              Instruction.randomDirect_of_full heffect hdraw hstack hfull
            exact ⟨rfl, .inr ⟨d, min, max, rfl, hdirect⟩⟩

/-- A division and a draw between two bounds. -/
def perilousImage : Image :=
  { Image.empty with program := ⟨#[some ⟨.binary .divide, 1⟩, some ⟨.randomDirect 1 6, 4⟩]⟩ }

def perilous (pc : Nat) (operands : List Int32) : ScriptInstance :=
  { ScriptInstance.new 0 ⟨1, 0, 0, false⟩ .zero .none with pc, stack := .ofList operands }

/-- In the middle of a message, with a request raised. -/
def perilousContext : Context where
  world := VarStore.zero.set 3 7
  map := VarStore.zero.set 1 (-1)
  print := ⟨"health: ", 128⟩
  rng := .ofSeed 5
  host := Host.new.record (.clearLineSpecial 12)
  requests := #[{ kind := .suspend, script := 2, map := 0, args := .zero, trigger := .none }]

/-- A division by zero has taken both its operands; a draw that finds no room has moved the
generator. -/
theorem step_fault_keeps_perilous :
    let division := step perilousImage (perilous 0 [7, 1, 0]) perilousContext
    let full := perilous 1 (List.replicate 32 9)
    let draw := step perilousImage full perilousContext
    (division.ending = .fault .divideByZero ∧ division.inst = perilous 0 [7] ∧
      division.context = { perilousContext with rng := division.context.rng } ∧
      division.context.rng = perilousContext.rng) ∧
    draw.ending = .fault .stackOverflow ∧ draw.inst = { full with stack := draw.inst.stack } ∧
      draw.context = { perilousContext with rng := draw.context.rng } ∧
      draw.context.rng ≠ perilousContext.rng := by
  intro division full draw
  have hdivision : division.ending = .fault .divideByZero := by decide +kernel
  have hdraw : draw.ending = .fault .stackOverflow := by decide +kernel
  have hdivided := step_fault_keeps perilousImage (perilous 0 [7, 1, 0]) perilousContext
    (by decide) hdivision
  have hdrawn := step_fault_keeps perilousImage full perilousContext (by decide) hdraw
  refine ⟨⟨hdivision, by decide +kernel, hdivided.2.2.1, ?_⟩, hdraw, hdrawn.1, hdrawn.2.2.1, ?_⟩
  · obtain hkept | ⟨d, min, max, hfetch, hd⟩ := hdivided.2.2.2
    · exact hkept
    · cases hfetch
      cases hd
  · decide +kernel

end MapScript
