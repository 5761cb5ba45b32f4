import MapScript.Proofs.Interpreter.Faults
import MapScript.Proofs.Interpreter.Iteration
import MapScript.Proofs.Machine.Runs

/-!
# Static stack effects

How many operands an instruction needs and how many results it leaves is known before it runs:
`stackEffect`.  `Takes` is a small logic for computations that take a fixed number of operands, and
`effect_takes` the walk through the instructions with it.
-/

namespace MapScript

/-- The fault is about something else than the bounds of the stack. -/
def Fault.OffStack (f : Fault) : Prop := f ≠ .stackUnderflow ∧ f ≠ .stackOverflow

theorem BinaryOp.offStack_of_eval {op : BinaryOp} {left right : Int32} {f : Fault}
    (h : op.eval left right = .error f) : f.OffStack := by
  cases op with
  | divide =>
      simp only [BinaryOp.eval] at h
      split at h
      · cases h
        exact ⟨by decide, by decide⟩
      · cases h
  | modulus =>
      simp only [BinaryOp.eval] at h
      split at h
      · cases h
        exact ⟨by decide, by decide⟩
      · cases h
  | _ => cases h

/-! ## Taking a fixed number of operands -/

namespace Operands

variable {α β : Type}

/-- What is wrong when a computation that needs `n` operands faults on a stack: there are fewer, or
there is no such string, which can be noticed before all operands are taken; or there are enough,
and something else is wrong. -/
def Faulty (n : Nat) (Q : Fault → Prop) (s : OperandStack) (f : Fault) : Prop :=
  f = .stackUnderflow ∧ s.cells.length < n ∨ (∃ index, f = .badString index) ∨
    n ≤ s.cells.length ∧ Q f

/-- The computation takes `n` operands, and whatever else it finds wrong satisfies `Q`. -/
def Takes (m : Operands α) (n : Nat) (Q : Fault → Prop) : Prop :=
  ∀ s, match m s with
    | .ok _ s' => n ≤ s.cells.length ∧ s'.cells = s.cells.drop n
    | .error f _ => Faulty n Q s f

namespace Takes

variable {m : Operands α} {f : α → Operands β} {Q : Fault → Prop}

theorem pure {a : α} : Takes (Pure.pure a) 0 Q :=
  fun _ => ⟨Nat.zero_le _, rfl⟩

theorem throw {fault : Fault} (h : Q fault) : Takes (throw fault : Operands α) 0 Q :=
  fun _ => .inr (.inr ⟨Nat.zero_le _, h⟩)

theorem missing (index : Int32) : Takes (MonadExcept.throw (.badString index) : Operands α) 0 Q :=
  fun _ => .inr (.inl ⟨index, rfl⟩)

/-- Only the last part of a computation may find something else wrong: the parts before it would
find it where operands are still missing. -/
theorem bind {n k : Nat} (hm : Takes m n fun _ => False) (hf : ∀ a, Takes (f a) k Q) :
    Takes (m >>= f) (k + n) Q := by
  intro s
  have hm := hm s
  simp only [Bind.bind, EStateM.bind]
  cases hs : m s with
  | error fault s' =>
      rw [hs] at hm
      obtain ⟨hfault, hlength⟩ | hmissing | ⟨_, hfalse⟩ := hm
      · exact .inl ⟨hfault, Nat.lt_add_left k hlength⟩
      · exact .inr (.inl hmissing)
      · exact hfalse.elim
  | ok a s' =>
      rw [hs] at hm
      obtain ⟨hlength, hcells⟩ := hm
      have hrest : s'.cells.length = s.cells.length - n := by rw [hcells, List.length_drop]
      have hf := hf a s'
      cases hs' : f a s' with
      | error fault s'' =>
          rw [hs'] at hf
          simp only [hs']
          obtain ⟨hfault, hless⟩ | hmissing | ⟨henough, hQ⟩ := hf
          · exact .inl ⟨hfault, by omega⟩
          · exact .inr (.inl hmissing)
          · exact .inr (.inr ⟨by omega, hQ⟩)
      | ok b s'' =>
          rw [hs'] at hf
          simp only [hs']
          refine ⟨by omega, ?_⟩
          rw [hf.2, hcells, List.drop_drop, Nat.add_comm]

theorem returning {n : Nat} {g : α → β} (hm : Takes m n Q) :
    Takes (m >>= fun a => Pure.pure (g a)) n Q := by
  intro s
  have hm := hm s
  simp only [Bind.bind, EStateM.bind]
  cases hs : m s with
  | error fault s' =>
      rw [hs] at hm
      exact hm
  | ok a s' =>
      rw [hs] at hm
      exact hm

theorem pop : Takes Operands.pop 1 Q := by
  intro s
  unfold Operands.pop
  cases hs : s.cells with
  | nil => exact .inl ⟨rfl, by rw [hs]; exact Nat.zero_lt_one⟩
  | cons v rest => exact ⟨Nat.le_add_left 1 rest.length, rfl⟩

theorem popMany (n : Nat) : Takes (Operands.popMany n) n Q := by
  induction n generalizing Q with
  | zero => exact .pure
  | succ n ih => exact .bind .pop fun _ => .returning ih

theorem popArgs (argc : Nat) : Takes (Operands.popArgs argc) argc Q :=
  .returning (.popMany argc)

theorem popString {image : Image} : Takes (Operands.popString image) 1 Q := by
  refine .bind .pop fun index => ?_
  cases image.string? index with
  | some text => exact .pure
  | none => exact .missing index

theorem orFault {x : Except Fault α} (hQ : ∀ fault, x = .error fault → Q fault) :
    Takes (Operands.orFault x) 0 Q := by
  cases x with
  | ok a => exact .pure
  | error fault => exact .throw (hQ fault rfl)

end Takes

end Operands

/-! ## Instructions -/

/-- How many results an effect of a kind leaves on the stack. -/
def Effect.Kind.results : Effect.Kind → Nat
  | push | draw => 1
  | nothing | store | jump | terminate | pause | emit | request | print => 0

namespace Instruction

open Operands

/-- How many operands an instruction needs and how many results it leaves. -/
def stackEffect : Instruction → Nat × Nat
  | nop | terminate | suspend | lineSpecialDirect _ _ _ | goto _ | delayDirect _ | tagWaitDirect _
  | polyWaitDirect _ | scriptWaitDirect _ | changeFlatDirect _ _ _ | restart | clearLineSpecial
  | beginPrint | endPrint | endPrintBold | unknown _ => (0, 0)
  | pushNumber _ | randomDirect _ _ | thingCountDirect _ _ | lineSide | playerCount | gameType
  | gameSkill | timer => (0, 1)
  | .variable .push _ _ => (0, 1)
  | .variable .inc _ _ | .variable .dec _ _ => (0, 0)
  | .variable _ _ _ => (1, 0)
  | unary _ => (1, 1)
  | ifGoto _ | ifNotGoto _ | caseGoto _ _ | drop | delay | tagWait | polyWait | scriptWait
  | printString | printNumber | printCharacter | soundSequence => (1, 0)
  | binary _ | random | thingCount => (2, 1)
  | changeFlat _ | sectorSound | ambientSound | setLineBlocking => (2, 0)
  | thingSound => (3, 0)
  | setLineTexture => (4, 0)
  | setLineSpecial => (7, 0)
  | lineSpecial _ argc => (argc, 0)

/-- How many operands an instruction takes from a stack: all that it needs, but for a case branch,
which leaves any value but its own. -/
def taken (instruction : Instruction) (s : OperandStack) : Nat :=
  match instruction with
  | caseGoto value _ => if s.toList.getLast? = some value then 1 else 0
  | _ => instruction.stackEffect.1

variable {image : Image} {i : ScriptInstance} {c : Context}

theorem results_of_mem_kinds {instruction : Instruction} {kind : Effect.Kind}
    (h : kind ∈ instruction.kinds) : kind.results = instruction.stackEffect.2 := by
  have hall : ∀ kind ∈ instruction.kinds, kind.results = instruction.stackEffect.2 := by
    cases instruction with
    | «variable» op scope index => cases op <;> simp [kinds, stackEffect, Effect.Kind.results]
    | _ => simp [kinds, stackEffect, Effect.Kind.results]
  exact hall kind h

theorem access_takes (op : VarOp) (scope : VarScope) (index : Nat) (current : Int32) :
    (access op scope index current).Takes (Instruction.variable op scope index).stackEffect.1
      Fault.OffStack := by
  have hcompute : ∀ operator,
      (access.compute scope index current operator).Takes 1 Fault.OffStack := by
    intro operator
    refine .bind .pop fun value => ?_
    exact .returning (.orFault fun _ h => BinaryOp.offStack_of_eval h)
  cases op with
  | push | inc | dec => exact .pure
  | assign => exact .returning .pop
  | add | sub | mul | div | mod => exact hcompute _

theorem effect_takes (instruction : Instruction)
    (hcase : ∀ value target, instruction ≠ .caseGoto value target) :
    (instruction.effect image i c).Takes instruction.stackEffect.1 Fault.OffStack := by
  cases instruction with
  | lineSpecial code argc => exact .returning (.popArgs argc)
  | «variable» op scope index => exact access_takes op scope index _
  | binary op =>
      refine .bind .pop fun right => .bind .pop fun left => ?_
      exact .returning (.orFault fun _ h => BinaryOp.offStack_of_eval h)
  | unary | drop | delay | tagWait | polyWait | scriptWait | ifGoto | ifNotGoto | printNumber
  | printCharacter => exact .returning .pop
  | caseGoto value target => exact absurd rfl (hcase value target)
  | random | thingCount | setLineBlocking => exact .bind .pop fun _ => .returning .pop
  | printString | soundSequence => exact .returning .popString
  | changeFlat surface => exact .bind .popString fun _ => .returning .pop
  | sectorSound | ambientSound => exact .bind .pop fun _ => .returning .popString
  | thingSound => exact .bind .pop fun _ => .bind .popString fun _ => .returning .pop
  | setLineTexture =>
      exact .bind .popString fun _ => .bind .pop fun _ => .bind .pop fun _ => .returning .pop
  | setLineSpecial =>
      exact .bind (k := 2) (.popArgs specialArgCount) fun _ => .bind .pop fun _ => .returning .pop
  | changeFlatDirect surface tag flat =>
      simp only [effect]
      split
      · exact .pure
      · exact .missing flat
  | restart =>
      simp only [effect]
      split
      · exact .pure
      · exact .throw (by simp [Fault.OffStack])
  | clearLineSpecial =>
      simp only [effect]
      split <;> exact .pure
  | unknown code => exact .throw (by simp [Fault.OffStack])
  | _ => exact .pure

/-- A case branch takes the top operand only where it is its own value. -/
theorem effect_caseGoto (value : Int32) (target : Nat) (v : Int32) (rest : List Int32) :
    (caseGoto value target).effect image i c ⟨v :: rest⟩ =
      if v = value then .ok (.jump target) ⟨rest⟩ else .ok .nothing ⟨v :: rest⟩ := by
  have htop : top ⟨v :: rest⟩ = .ok v ⟨v :: rest⟩ := rfl
  by_cases hv : v = value
  · simp only [effect, bind, EStateM.bind, htop, if_pos hv]
    rfl
  · simp only [effect, bind, EStateM.bind, htop, if_neg hv]
    rfl

theorem taken_of_not_case {instruction : Instruction}
    (hcase : ∀ value target, instruction ≠ .caseGoto value target) (s : OperandStack) :
    instruction.taken s = instruction.stackEffect.1 := by
  cases instruction with
  | caseGoto value target => exact absurd rfl (hcase value target)
  | _ => rfl

theorem taken_of_result {instruction : Instruction} (hresult : instruction.stackEffect.2 = 1)
    (s : OperandStack) : instruction.taken s = instruction.stackEffect.1 := by
  apply taken_of_not_case
  rintro value target rfl
  cases hresult

section

variable {instruction : Instruction} {s s' : OperandStack}

theorem cells_of_effect_ok {effect : Effect} (h : instruction.effect image i c s = .ok effect s') :
    instruction.stackEffect.1 ≤ s.cells.length ∧ s'.cells = s.cells.drop (instruction.taken s) := by
  by_cases hcase : ∃ value target, instruction = .caseGoto value target
  · obtain ⟨value, target, rfl⟩ := hcase
    obtain ⟨_ | ⟨v, rest⟩⟩ := s
    · cases h
    · have htop : (OperandStack.mk (v :: rest)).toList.getLast? = some v := by
        simp [OperandStack.toList]
      rw [effect_caseGoto] at h
      simp only [taken, htop, Option.some.injEq]
      refine ⟨Nat.le_add_left 1 rest.length, ?_⟩
      by_cases hv : v = value
      · rw [if_pos hv] at h ⊢
        cases h
        rfl
      · rw [if_neg hv] at h ⊢
        cases h
        rfl
  · have hcase : ∀ value target, instruction ≠ .caseGoto value target :=
      fun value target heq => hcase ⟨value, target, heq⟩
    have htakes : (instruction.effect image i c).Takes _ _ := effect_takes instruction hcase
    have hs := htakes s
    rw [h] at hs
    rw [taken_of_not_case hcase]
    exact hs

theorem faulty_of_effect_error {f : Fault} (h : instruction.effect image i c s = .error f s') :
    Faulty instruction.stackEffect.1 Fault.OffStack s f := by
  by_cases hcase : ∃ value target, instruction = .caseGoto value target
  · obtain ⟨value, target, rfl⟩ := hcase
    obtain ⟨_ | ⟨v, rest⟩⟩ := s
    · cases h
      exact .inl ⟨rfl, Nat.zero_lt_one⟩
    · rw [effect_caseGoto] at h
      split at h <;> cases h
  · have htakes : (instruction.effect image i c).Takes _ _ :=
      effect_takes instruction fun value target heq => hcase ⟨value, target, heq⟩
    have hs := htakes s
    rw [h] at hs
    exact hs

/-- An instruction that only leaves a result has nothing to find wrong. -/
theorem effect_of_result_only (heffect : instruction.stackEffect = (0, 1)) :
    ∃ effect, instruction.effect image i c s = .ok effect s := by
  cases instruction with
  | pushNumber | randomDirect | thingCountDirect | lineSide | playerCount | gameType | gameSkill
  | timer => exact ⟨_, rfl⟩
  | «variable» op scope index =>
      cases op with
      | push => exact ⟨_, rfl⟩
      | _ => cases heffect
  | lineSpecial code argc =>
      have hnone := congrArg Prod.snd heffect
      cases hnone
  | _ => cases heffect

end

end Instruction

/-! ## Steps -/

/-- Either there is no room for the results, or they stand on top of the operands. -/
def Stepped.Leaves (results : Nat) (i : ScriptInstance) (r : Stepped) : Prop :=
  (results = 1 ∧ OperandStack.depth ≤ i.stack.cells.length ∧ r.ending = .fault .stackOverflow ∧
    r.inst.stack = i.stack) ∨
  ((results = 0 ∨ results = 1 ∧ i.stack.cells.length < OperandStack.depth) ∧
    (∀ f, r.ending ≠ .fault f) ∧
    ∃ values, values.length = results ∧ r.inst.stack.cells = values ++ i.stack.cells)

theorem pushResult_leaves (next : Nat) (value : Int32) (i : ScriptInstance) (c : Context) :
    (pushResult next value i c).Leaves 1 i := by
  by_cases hroom : i.stack.cells.length < OperandStack.depth
  · have hpush : i.stack.push value = .ok ⟨value :: i.stack.cells⟩ := if_pos hroom
    rw [pushResult, hpush]
    exact .inr ⟨.inr ⟨rfl, hroom⟩, nofun, [value], rfl, rfl⟩
  · have hpush : i.stack.push value = .error .stackOverflow := if_neg hroom
    rw [pushResult, hpush]
    exact .inl ⟨rfl, Nat.le_of_not_lt hroom, rfl, rfl⟩

theorem Effect.perform_leaves (effect : Effect) (next : Nat) (i : ScriptInstance) (c : Context) :
    (effect.perform next i c).Leaves effect.kind.results i := by
  cases effect with
  | push value => exact pushResult_leaves next value i c
  | draw min max => exact pushResult_leaves next _ i _
  | store scope index value => cases scope <;> exact .inr ⟨.inl rfl, nofun, [], rfl, rfl⟩
  | _ => exact .inr ⟨.inl rfl, nofun, [], rfl, rfl⟩

section

variable {image : Image} {i : ScriptInstance} {c : Context} {d : Decoded}

/-- A step faults while it takes its operands, or it takes them and leaves its results. -/
theorem step_stack_cases (hd : image.program.fetch i.pc = some d) :
    (∃ f, (step image i c).ending = .fault f ∧
      Operands.Faulty d.instruction.stackEffect.1 Fault.OffStack i.stack f ∧
      d.instruction.stackEffect ≠ (0, 1)) ∨
    (d.instruction.stackEffect.1 ≤ i.stack.cells.length ∧
      (step image i c).Leaves d.instruction.stackEffect.2
        { i with stack := ⟨i.stack.cells.drop (d.instruction.taken i.stack)⟩ }) := by
  cases heffect : d.instruction.effect image i c i.stack with
  | error f stack =>
      have hstep : step image i c = ⟨.fault f, { i with stack }, c⟩ := by
        simp only [step, hd, heffect]
      refine .inl ⟨f, by rw [hstep], Instruction.faulty_of_effect_error heffect, fun hresult => ?_⟩
      have hnone : ∃ effect, d.instruction.effect image i c i.stack = .ok effect i.stack :=
        Instruction.effect_of_result_only hresult
      obtain ⟨effect, hok⟩ := hnone
      rw [hok] at heffect
      cases heffect
  | ok effect stack =>
      have hstep : step image i c = effect.perform d.next { i with stack } c := by
        simp only [step, hd, heffect]
      obtain ⟨hneeded, hcells⟩ := Instruction.cells_of_effect_ok heffect
      have hresults := Instruction.results_of_mem_kinds (Instruction.of_effect_ok heffect).2
      have hleaves := effect.perform_leaves d.next { i with stack } c
      have hstack : stack = ⟨i.stack.cells.drop (d.instruction.taken i.stack)⟩ := by
        rw [← hcells]
      rw [← hstep, hresults, hstack] at hleaves
      exact .inr ⟨hneeded, hleaves⟩

theorem underflow_of_step (hd : image.program.fetch i.pc = some d)
    (hless : i.stack.cells.length < d.instruction.stackEffect.1) :
    (step image i c).ending = .fault .stackUnderflow ∨
      ∃ index, (step image i c).ending = .fault (.badString index) := by
  obtain ⟨f, hend, hfaulty, _⟩ | ⟨hneeded, _⟩ := step_stack_cases (c := c) hd
  · rw [hend]
    obtain ⟨rfl, _⟩ | ⟨index, rfl⟩ | ⟨henough, _⟩ := hfaulty
    · exact .inl rfl
    · exact .inr ⟨index, rfl⟩
    · exact absurd hless (Nat.not_lt.2 henough)
  · exact absurd hless (Nat.not_lt.2 hneeded)

theorem no_underflow_of_step (hd : image.program.fetch i.pc = some d)
    (henough : d.instruction.stackEffect.1 ≤ i.stack.cells.length) :
    (step image i c).ending ≠ .fault .stackUnderflow := by
  intro hunderflow
  obtain ⟨f, hend, hfaulty, _⟩ | ⟨_, ⟨_, _, hend, _⟩ | ⟨_, hend, _⟩⟩ := step_stack_cases (c := c) hd
  · rw [hend] at hunderflow
    cases hunderflow
    obtain ⟨_, hless⟩ | ⟨index, hmissing⟩ | ⟨_, hoff⟩ := hfaulty
    · exact absurd hless (Nat.not_lt.2 henough)
    · cases hmissing
    · exact hoff.1 rfl
  · rw [hend] at hunderflow
    cases hunderflow
  · exact hend _ hunderflow

theorem overflow_iff_of_step (hd : image.program.fetch i.pc = some d)
    (hstack : i.stack.cells.length ≤ OperandStack.depth) :
    (step image i c).ending = .fault .stackOverflow ↔
      d.instruction.stackEffect.1 = 0 ∧ d.instruction.stackEffect.2 = 1 ∧
        i.stack.cells.length = OperandStack.depth := by
  obtain ⟨f, hend, hfaulty, heffect⟩ | ⟨hneeded, hleaves⟩ := step_stack_cases (c := c) hd
  · rw [hend]
    constructor
    · intro hoverflow
      cases hoverflow
      obtain ⟨hunderflow, _⟩ | ⟨index, hmissing⟩ | ⟨_, hoff⟩ := hfaulty
      · cases hunderflow
      · cases hmissing
      · exact absurd rfl hoff.2
    · rintro ⟨hneeds, hresult, _⟩
      exact absurd (Prod.ext hneeds hresult) heffect
  · obtain ⟨hresult, hfull, hend, _⟩ | ⟨hroom, hend, _⟩ := hleaves
    · -- what is left fills the stack, so nothing was taken from it
      rw [Instruction.taken_of_result hresult, List.length_drop] at hfull
      have hempty : d.instruction.stackEffect.1 = 0 := by
        unfold OperandStack.depth at hfull hstack
        omega
      refine iff_of_true hend ⟨hempty, hresult, ?_⟩
      omega
    · refine iff_of_false (hend _) ?_
      rintro ⟨hneeds, hresult, hfull⟩
      obtain hnone | ⟨_, hroom⟩ := hroom
      · rw [hresult] at hnone
        cases hnone
      · rw [Instruction.taken_of_result hresult, hneeds, List.drop_zero] at hroom
        exact Nat.ne_of_lt hroom hfull

theorem stack_of_step (hd : image.program.fetch i.pc = some d)
    (hend : ∀ f, (step image i c).ending ≠ .fault f) :
    ∃ values, values.length = d.instruction.stackEffect.2 ∧ (step image i c).inst.stack.cells =
      values ++ i.stack.cells.drop (d.instruction.taken i.stack) := by
  obtain ⟨f, hfault, _⟩ | ⟨_, ⟨_, _, hfault, _⟩ | ⟨_, _, hvalues⟩⟩ :=
    step_stack_cases (c := c) hd
  · exact absurd hfault (hend f)
  · exact absurd hfault (hend _)
  · exact hvalues

theorem length_step_le (hstack : i.stack.cells.length ≤ OperandStack.depth) :
    (step image i c).inst.stack.cells.length ≤ OperandStack.depth := by
  cases hfetch : image.program.fetch i.pc with
  | none =>
      rw [step, hfetch]
      exact hstack
  | some d =>
      cases heffect : d.instruction.effect image i c i.stack with
      | error f stack =>
          simp only [step, hfetch, heffect]
          exact Nat.le_trans (Instruction.suffix_of_effect_error heffect).length_le hstack
      | ok effect stack =>
          have htaken := (Instruction.of_effect_ok heffect).1.length_le
          simp only [step, hfetch, heffect]
          obtain ⟨_, _, _, hkept⟩ | ⟨hresults, _, values, hvalues, hcells⟩ :=
            effect.perform_leaves d.next { i with stack } c
          · rw [hkept]
            exact Nat.le_trans htaken hstack
          · rw [hcells, List.length_append, hvalues]
            simp only at hresults ⊢
            omega

theorem length_nthStep_le (hstack : i.stack.cells.length ≤ OperandStack.depth) (n : Nat) :
    (nthStep image i c n).inst.stack.cells.length ≤ OperandStack.depth := by
  induction n with
  | zero => exact hstack
  | succ n ih => exact length_step_le ih

end

/-- Every instruction has its static stack effect.  With fewer operands than it needs a step
faults, for want of one or for a string that is not there; with enough it never faults for want of
one.  It finds no room exactly where it takes nothing, leaves a result and the stack is full.  A
step that does not fault takes its operands from the top, leaves the operands below as they are and
its results on top of them.  So there are never more than 32 operands, along any steps and in any
run of a machine. -/
theorem step_stack_effect (image : Image) (i : ScriptInstance) (c : Context) {d : Decoded}
    (hd : image.program.fetch i.pc = some d) (hstack : i.stack.toList.length ≤ 32) :
    let r := step image i c
    let depth := i.stack.toList.length
    let needed := d.instruction.stackEffect.1
    let results := d.instruction.stackEffect.2
    let taken := d.instruction.taken i.stack
    (depth < needed → r.ending = .fault .stackUnderflow ∨
      ∃ index, r.ending = .fault (.badString index)) ∧
    (needed ≤ depth → r.ending ≠ .fault .stackUnderflow) ∧
    (r.ending = .fault .stackOverflow ↔ needed = 0 ∧ results = 1 ∧ depth = 32) ∧
    ((∀ f, r.ending ≠ .fault f) →
      r.inst.stack.toList.take (depth - taken) = i.stack.toList.take (depth - taken) ∧
      r.inst.stack.toList.length = depth - taken + results) ∧
    (∀ n, (nthStep image i c n).inst.stack.toList.length ≤ 32) ∧
    ∀ config entropy ops h j,
      ((Machine.new config entropy).after ops).instances.get? h = some j →
        j.stack.toList.length ≤ 32 := by
  intro r depth needed results taken
  have hdepth : depth = i.stack.cells.length := List.length_reverse
  have hcells : i.stack.cells.length ≤ OperandStack.depth := by
    rw [← hdepth]
    exact hstack
  refine ⟨?_, ?_, ?_, fun hend => ?_, fun n => ?_, fun config entropy ops h j hj => ?_⟩
  · rw [hdepth]
    exact underflow_of_step hd
  · rw [hdepth]
    exact no_underflow_of_step hd
  · rw [hdepth]
    exact overflow_iff_of_step hd hcells
  · obtain ⟨values, hvalues, hleft⟩ := stack_of_step hd hend
    have htoList : r.inst.stack.toList =
        i.stack.toList.take (depth - taken) ++ values.reverse := by
      rw [OperandStack.toList, hleft, List.reverse_append, List.reverse_drop, hdepth]
      rfl
    have hlower : (i.stack.toList.take (depth - taken)).length = depth - taken :=
      List.length_take_of_le (Nat.sub_le depth taken)
    constructor
    · rw [htoList]
      exact List.take_left' hlower
    · rw [htoList, List.length_append, hlower, List.length_reverse, hvalues]
  · rw [OperandStack.toList, List.length_reverse]
    exact length_nthStep_le hcells n
  · rw [OperandStack.toList, List.length_reverse]
    exact ((Machine.wellFormed_after_new config entropy ops).table.instances h j hj).stack

/-- A division takes two operands and leaves one; a draw between two bounds in the code finds no
room on a full stack. -/
theorem step_stack_effect_perilous :
    let division := step perilousImage (perilous 0 [7, 9, 3]) perilousContext
    let draw := step perilousImage (perilous 1 (List.replicate 32 9)) perilousContext
    (division.ending = .continue ∧ division.inst.stack.toList.take 1 = [7] ∧
      division.inst.stack.toList.length = 2) ∧
    draw.ending = .fault .stackOverflow := by
  intro division draw
  have hgoesOn : division.ending = .continue := by decide +kernel
  have hdivision := step_stack_effect perilousImage (perilous 0 [7, 9, 3]) perilousContext
    (d := ⟨.binary .divide, 1⟩) rfl (by decide)
  have hdraw := step_stack_effect perilousImage (perilous 1 (List.replicate 32 9)) perilousContext
    (d := ⟨.randomDirect 1 6, 4⟩) rfl (by decide)
  have hdivided := hdivision.2.2.2.1 (by rw [hgoesOn]; exact nofun)
  exact ⟨⟨hgoesOn, hdivided⟩, hdraw.2.2.1.2 ⟨rfl, rfl, by decide⟩⟩

end MapScript
