import MapScript.Interpreter.Step
import MapScript.Proofs.Image.Cells

/-!
# Operands on the stack and operands in the code

Some operations have two opcodes, one that takes its operands from the stack and one with the
operands in the code.  Pushing the operands in the order in which the code would hold them and then
running the first does what the second does.
-/

namespace MapScript

/-- The opcodes that take operands from the stack, each with the one that has them in the code. -/
def Opcode.twoForms : List (Opcode × Opcode) :=
  [(.lSpec1, .lSpec1Direct), (.lSpec2, .lSpec2Direct), (.lSpec3, .lSpec3Direct),
    (.lSpec4, .lSpec4Direct), (.lSpec5, .lSpec5Direct), (.delay, .delayDirect),
    (.random, .randomDirect), (.thingCount, .thingCountDirect), (.tagWait, .tagWaitDirect),
    (.polyWait, .polyWaitDirect), (.scriptWait, .scriptWaitDirect),
    (.changeFloor, .changeFloorDirect), (.changeCeiling, .changeCeilingDirect)]

/-- The code that pushes some numbers. -/
def pushes (values : List Int32) : List Int32 :=
  values.flatMap fun value => [Opcode.pushNumber.code, value]

/-- Runs `n` instructions, or fewer where one of them does not go on. -/
def steps (image : Image) : Nat → ScriptInstance → Context → Stepped
  | 0, i, c => ⟨.continue, i, c⟩
  | n + 1, i, c =>
    let s := step image i c
    match s.ending with
    | .continue => steps image n s.inst s.context
    | _ => s

/-- Nothing tells the two apart but where they stand and, after a fault, the operands left. -/
structure Stepped.Alike (r r' : Stepped) : Prop where
  ending : r.ending = r'.ending
  context : r.context = r'.context
  inst : r.inst = { r'.inst with pc := r.inst.pc, stack := r.inst.stack }
  stack : (∀ f, r.ending ≠ .fault f) → r.inst.stack = r'.inst.stack

/-! ## Taking what was pushed -/

namespace Operands

theorem popMany_pushed (values cells : List Int32) :
    popMany values.length ⟨values.reverse ++ cells⟩ = .ok values ⟨cells⟩ := by
  -- the last operand is on top, so the operands are taken from the end of the list
  induction hn : values.length generalizing values with
  | zero =>
      rw [List.length_eq_zero_iff.1 hn]
      rfl
  | succ n ih =>
      obtain ⟨before, last, rfl⟩ : ∃ before last, values = before ++ [last] := by
        refine ⟨_, _, (List.dropLast_append_getLast (l := values) ?_).symm⟩
        rintro rfl
        cases hn
      rw [List.length_append, List.length_singleton, Nat.add_right_cancel_iff] at hn
      rw [List.reverse_append, List.reverse_singleton, List.singleton_append]
      have hbefore := ih before hn
      simp only [popMany, pop, bind, EStateM.bind, List.cons_append, hbefore]
      rfl

end Operands

namespace Instruction

/-- From a stack with the operands on top, the first instruction does what the second does without
them. -/
def Stacks (stacked inlined : Instruction) (operands : List Int32) : Prop :=
  ∀ (image : Image) (i j : ScriptInstance) (c : Context) (cells : List Int32),
    i.trigger = j.trigger →
    (∃ effect s, stacked.effect image i c ⟨operands.reverse ++ cells⟩ = .ok effect s ∧
      inlined.effect image j c ⟨cells⟩ = .ok effect s) ∨
    ∃ f s s', stacked.effect image i c ⟨operands.reverse ++ cells⟩ = .error f s ∧
      inlined.effect image j c ⟨cells⟩ = .error f s'

theorem lineSpecial_stacks (code : Int32) (args : List Int32) :
    Stacks (.lineSpecial code args.length)
      (.lineSpecialDirect code args.length (SpecialArgs.ofList args)) args := by
  intro image i j c cells htrigger
  refine .inl ⟨.special code (SpecialArgs.ofList args) j.trigger, ⟨cells⟩, ?_, rfl⟩
  have hpop := Operands.popMany_pushed args cells
  simp only [effect, Operands.popArgs, bind, EStateM.bind, hpop, htrigger]
  rfl

theorem changeFlat_stacks (surface : Surface) (tag flat : Int32) :
    Stacks (.changeFlat surface) (.changeFlatDirect surface tag flat) [tag, flat] := by
  intro image i j c cells _
  have hstack : [tag, flat].reverse ++ cells = flat :: tag :: cells := rfl
  rw [hstack]
  cases hflat : image.string? flat with
  | some text =>
      refine .inl ⟨.emit (.changeFlat tag surface text), ⟨cells⟩, ?_, ?_⟩
      · simp only [effect, Operands.popString, Operands.pop, bind, EStateM.bind, hflat]
        rfl
      · simp only [effect, hflat]
        rfl
  | none =>
      -- the tag is still on the stack when the flat is found missing
      refine .inr ⟨.badString flat, ⟨tag :: cells⟩, ⟨cells⟩, ?_, ?_⟩
      · simp only [effect, Operands.popString, Operands.pop, bind, EStateM.bind, hflat]
        rfl
      · simp only [effect, hflat]
        rfl

end Instruction

/-- A form with operands on the stack and one with the same operands in the code. -/
inductive Form.Twofold : Form → Form → Prop
  | special (argc : Fin 6) : Twofold (.number (.lineSpecial · argc)) (.direct argc)
  | one {instruction : Instruction} {make : Int32 → Instruction}
      (h : ∀ value, instruction.Stacks (make value) [value]) :
      Twofold (.plain instruction) (.number make)
  | two {instruction : Instruction} {make : Int32 → Int32 → Instruction}
      (h : ∀ first second, instruction.Stacks (make first second) [first, second]) :
      Twofold (.plain instruction) (.numbers make)

theorem Opcode.twofold_of_twoForms :
    ∀ pair ∈ Opcode.twoForms, Form.Twofold pair.1.form pair.2.form := by
  simp only [Opcode.twoForms, List.forall_mem_cons]
  refine ⟨.special 1, .special 2, .special 3, .special 4, .special 5, .one ?delay, .two ?random,
    .two ?thingCount, .one ?tagWait, .one ?polyWait, .one ?scriptWait,
    .two (Instruction.changeFlat_stacks .floor), .two (Instruction.changeFlat_stacks .ceiling),
    List.forall_mem_nil _⟩
  case delay | tagWait | polyWait | scriptWait =>
    intro value image i j c cells _
    exact .inl ⟨_, _, rfl, rfl⟩
  case random | thingCount =>
    intro first second image i j c cells _
    exact .inl ⟨_, _, rfl, rfl⟩

/-- The cells that both forms share and the operands make two instructions of which the first does
with the operands on the stack what the second does. -/
theorem Form.Twofold.makes {stackForm inlineForm : Form} (h : stackForm.Twofold inlineForm)
    {shared operands : List Int32} (hshared : shared.length = stackForm.width)
    (hoperands : shared.length + operands.length = inlineForm.width) :
    ∃ stacked inlined, stackForm.Makes shared stacked ∧
      inlineForm.Makes (shared ++ operands) inlined ∧ stacked.Stacks inlined operands := by
  cases h with
  | special argc =>
      obtain ⟨code, rfl⟩ := List.length_eq_one_iff.1 hshared
      have hargs : operands.length = argc := by
        rw [hshared, Nat.add_comm] at hoperands
        exact Nat.add_right_cancel hoperands
      refine ⟨_, _, .number _ code, .direct argc code operands hargs, ?_⟩
      rw [← hargs]
      exact Instruction.lineSpecial_stacks code operands
  | one h =>
      obtain rfl := List.length_eq_zero_iff.1 hshared
      obtain ⟨value, rfl⟩ := List.length_eq_one_iff.1 (by simpa [Form.width] using hoperands)
      exact ⟨_, _, .plain _, .number _ value, h value⟩
  | two h =>
      obtain rfl := List.length_eq_zero_iff.1 hshared
      obtain ⟨first, second, rfl⟩ := List.length_eq_two.1 (by simpa [Form.width] using hoperands)
      exact ⟨_, _, .plain _, .numbers _ first second, h first second⟩

/-! ## Running both -/

theorem pushResult_alike (next next' pc : Nat) (value : Int32) (i : ScriptInstance) (c : Context) :
    (pushResult next value { i with pc } c).Alike (pushResult next' value i c) := by
  unfold pushResult
  cases i.stack.push value with
  | ok stack => exact ⟨rfl, rfl, rfl, fun _ => rfl⟩
  | error f => exact ⟨rfl, rfl, rfl, fun _ => rfl⟩

/-- An effect is the same wherever its instruction stands. -/
theorem Effect.perform_alike (effect : Effect) (next next' pc : Nat) (i : ScriptInstance)
    (c : Context) : (effect.perform next { i with pc } c).Alike (effect.perform next' i c) := by
  cases effect with
  | push value => exact pushResult_alike next next' pc value i c
  | draw min max => exact pushResult_alike next next' pc _ i _
  | store scope index value => cases scope <;> exact ⟨rfl, rfl, rfl, fun _ => rfl⟩
  | _ => exact ⟨rfl, rfl, rfl, fun _ => rfl⟩

section

variable {image : Image} {c : Context}

theorem step_alike {i : ScriptInstance} {pc : Nat} {d e : Decoded} {operands : List Int32}
    (hd : image.program.fetch pc = some d) (he : image.program.fetch i.pc = some e)
    (hstacks : d.instruction.Stacks e.instruction operands) :
    (step image { i with pc, stack := ⟨operands.reverse ++ i.stack.cells⟩ } c).Alike
      (step image i c) := by
  have hsame := hstacks image { i with pc, stack := ⟨operands.reverse ++ i.stack.cells⟩ } i c
    i.stack.cells rfl
  simp only [step, hd, he]
  obtain ⟨effect, stack, hstacked, hinlined⟩ | ⟨f, left, left', hstacked, hinlined⟩ := hsame
  · rw [hstacked, hinlined]
    exact effect.perform_alike d.next e.next pc { i with stack } c
  · rw [hstacked, hinlined]
    exact ⟨rfl, rfl, rfl, fun hend => absurd rfl (hend f)⟩

theorem steps_one (i : ScriptInstance) : steps image 1 i c = step image i c := by
  simp only [steps]
  cases hstep : step image i c with
  | mk ending inst context => cases ending <;> rfl

theorem step_pushNumber {i : ScriptInstance} {value : Int32} {next : Nat}
    (hfetch : image.program.fetch i.pc = some ⟨.pushNumber value, next⟩)
    (hroom : i.stack.cells.length < OperandStack.depth) :
    step image i c =
      ⟨.continue, { i with pc := next, stack := ⟨value :: i.stack.cells⟩ }, c⟩ := by
  have heffect : (Instruction.pushNumber value).effect image i c i.stack =
      .ok (.push value) i.stack := rfl
  simp only [step, hfetch, heffect, Effect.perform, pushResult, OperandStack.push, if_pos hroom]

/-- Code that pushes numbers leaves them on the stack, the last on top, and execution behind it. -/
theorem steps_pushes {bytes : List UInt8} (hparse : Image.parse bytes = .ok image)
    (values : List Int32) {rest : List Int32} (n : Nat) {i : ScriptInstance}
    (hcells : pushes values ++ rest <+: (Image.codeArea bytes).toList.drop i.pc)
    (hpc : image.program.isBoundary i.pc = true)
    (hroom : i.stack.cells.length + values.length ≤ OperandStack.depth) :
    ∃ pc, image.program.isBoundary pc = true ∧
      rest <+: (Image.codeArea bytes).toList.drop pc ∧
      steps image (values.length + n) i c =
        steps image n { i with pc, stack := ⟨values.reverse ++ i.stack.cells⟩ } c := by
  induction values generalizing i with
  | nil => exact ⟨i.pc, hpc, hcells, by rw [List.length_nil, Nat.zero_add]; rfl⟩
  | cons value values ih =>
      have hfetch : image.program.fetch i.pc = some ⟨.pushNumber value, i.pc + 2⟩ :=
        Image.fetch_of_cells hparse hpc
          ((List.prefix_append [Opcode.pushNumber.code, value] _).trans hcells) (.number _ value)
      have hstep := step_pushNumber (c := c) hfetch (by rw [List.length_cons] at hroom; omega)
      have hnext := (Image.sound_of_parse hparse).closed.next _ _ hfetch rfl
      have hbehind : pushes values ++ rest <+: (Image.codeArea bytes).toList.drop (i.pc + 2) := by
        obtain ⟨tail, htail⟩ := hcells
        exact ⟨tail, by rw [← List.drop_drop, ← htail]; rfl⟩
      obtain ⟨pc, hboundary, hrest, hsteps⟩ :=
        ih (i := { i with pc := i.pc + 2, stack := ⟨value :: i.stack.cells⟩ }) hbehind hnext
          (by rw [List.length_cons] at hroom ⊢; omega)
      refine ⟨pc, hboundary, hrest, ?_⟩
      rw [List.length_cons, Nat.add_right_comm]
      simp only [steps, hstep]
      rw [hsteps, List.reverse_cons, List.append_assoc, List.singleton_append]

end

/-- Pushing the operands and running the opcode that takes them from the stack ends as the opcode
that has them in the code does, in every image that holds both where its scripts come by.  Both
opcodes have the `shared` cells in the code: the number of a line special, and nothing else. -/
theorem stacked_alike_inlined {stackOp inlineOp : Opcode}
    (hforms : (stackOp, inlineOp) ∈ Opcode.twoForms) {bytes : List UInt8} {image : Image}
    (hparse : Image.parse bytes = .ok image) (shared operands : List Int32)
    (hshared : shared.length = stackOp.operandCells)
    (hoperands : shared.length + operands.length = inlineOp.operandCells) (a b : Nat)
    (ha : image.program.isBoundary a = true) (hb : image.program.isBoundary b = true)
    (hstacked : pushes operands ++ stackOp.code :: shared <+:
      (Image.codeArea bytes).toList.drop a)
    (hinlined : inlineOp.code :: (shared ++ operands) <+: (Image.codeArea bytes).toList.drop b)
    (i : ScriptInstance) (c : Context)
    (hroom : i.stack.cells.length + operands.length ≤ OperandStack.depth) :
    (steps image (operands.length + 1) { i with pc := a } c).Alike
      (step image { i with pc := b } c) := by
  obtain ⟨stacked, inlined, hstackMakes, hinlineMakes, hstacks⟩ :=
    (Opcode.twofold_of_twoForms _ hforms).makes hshared hoperands
  obtain ⟨pc, hpc, hrest, hsteps⟩ :=
    steps_pushes (c := c) hparse operands 1 (i := { i with pc := a }) hstacked ha hroom
  have hstackFetch := Image.fetch_of_cells hparse hpc hrest hstackMakes
  have hinlineFetch := Image.fetch_of_cells hparse hb hinlined hinlineMakes
  rw [hsteps, steps_one]
  exact step_alike (i := { i with pc := b }) hstackFetch hinlineFetch hstacks

/-- A start of script 4 and a change to a flat that no string names, both with the operands on the
stack and with the operands in the code. -/
def twiceBytes : List UInt8 :=
  Word.join [0x534341, 96, 3, 4, 3, 0, 3, 9, 6, 80, 11, 80, 4, 0, 9, 3, 7, 3, 3, 65, 66, 7, 3, 1,
    1, 1001, 8, 0, 0]

def twiceImage : Image := (Image.parse twiceBytes).toOption.getD .empty

def twiceInstance : ScriptInstance := .new 0 ⟨1, 2, 0, true⟩ .zero .none

def twiceContext : Context where
  world := .zero
  map := .zero
  print := .new 128
  rng := .ofSeed 5
  host := .new

/-- The start goes to the requests either way; the missing flat leaves the tag behind where it was
on the stack. -/
theorem stacked_alike_inlined_twice :
    let i := twiceInstance
    let c := twiceContext
    let start := step twiceImage { i with pc := 10 } c
    let change := step twiceImage { i with pc := 20 } c
    (steps twiceImage 4 { i with pc := 2 } c).Alike start ∧
    start.context.requests.map (·.script) = #[4] ∧
    (steps twiceImage 3 { i with pc := 15 } c).Alike change ∧
    change.ending = .fault (.badString 3) ∧
    (steps twiceImage 3 { i with pc := 15 } c).inst.stack.toList = [7] ∧
    change.inst.stack.toList = [] := by
  have hparse : Image.parse twiceBytes = .ok twiceImage := by decide +kernel
  intro i c start change
  have hspecial : (Opcode.lSpec3, Opcode.lSpec3Direct) ∈ Opcode.twoForms := by decide
  have hflat : (Opcode.changeFloor, Opcode.changeFloorDirect) ∈ Opcode.twoForms := by decide
  have hstart := stacked_alike_inlined hspecial hparse [80] [4, 0, 9] rfl rfl 2 10
    (by decide +kernel) (by decide +kernel) (by decide +kernel) (by decide +kernel) i c (by decide)
  have hchange := stacked_alike_inlined hflat hparse [] [7, 3] rfl rfl 15 20
    (by decide +kernel) (by decide +kernel) (by decide +kernel) (by decide +kernel) i c (by decide)
  exact ⟨hstart, by decide +kernel, hchange, by decide +kernel, by decide +kernel,
    by decide +kernel⟩

end MapScript
