import MapScript.Proofs.Interpreter.Forms

/-!
# Variables and operators

A variable instruction that applies an operator does in one go what loading the variable, applying
the operator on the stack and storing the result do in three.  Both come to `assignResult`: the
result is stored, or its fault ends the step.  Counting up and down are such instructions with the
number one.
-/

namespace MapScript

/-! ## Opcodes -/

/-- The variable instructions that apply an operator, each with the opcode and the operator that
take both operands from the stack. -/
def VarOp.compounds : List (VarOp × Opcode × BinaryOp) :=
  [(.add, .add, .add), (.sub, .subtract, .subtract), (.mul, .multiply, .multiply),
    (.div, .divide, .divide), (.mod, .modulus, .modulus)]

/-- The variable instructions that count, each with the one that does so by a given number. -/
def VarOp.counts : List (VarOp × VarOp × BinaryOp) :=
  [(.inc, .add, .add), (.dec, .sub, .subtract)]

theorem VarOp.form_of_compounds : ∀ x ∈ VarOp.compounds, x.2.1.form = .plain (.binary x.2.2) := by
  simp only [VarOp.compounds, List.forall_mem_cons]
  exact ⟨rfl, rfl, rfl, rfl, rfl, List.forall_mem_nil _⟩

theorem VarOp.compounds_of_counts :
    ∀ x ∈ VarOp.counts, ∃ plain, (x.2.1, plain, x.2.2) ∈ VarOp.compounds := by
  simp only [VarOp.counts, List.forall_mem_cons]
  exact ⟨⟨.add, by decide⟩, ⟨.subtract, by decide⟩, List.forall_mem_nil _⟩

/-! ## What a variable instruction comes to -/

/-- Stores a result in a variable and goes on. -/
def assignResult (next : Nat) (scope : VarScope) (index : Nat) (result : Except Fault Int32)
    (i : ScriptInstance) (c : Context) : Stepped :=
  match result with
  | .ok value => (Effect.store scope index value).perform next i c
  | .error f => ⟨.fault f, i, c⟩

/-- The value of a variable once a step or some steps are over. -/
def Stepped.load (r : Stepped) (scope : VarScope) (index : Nat) : Int32 :=
  r.context.load r.inst.locals scope index

/-- The result is in the variable and all others are as before; or there is none, and the variable
is as before too. -/
structure Stepped.Updates (r : Stepped) (scope : VarScope) (index : Nat)
    (result : Except Fault Int32) (i : ScriptInstance) (c : Context) : Prop where
  value : ∀ x, result = .ok x → r.ending = .continue ∧ r.load scope index = x
  fault : ∀ f, result = .error f →
    r.ending = .fault f ∧ r.load scope index = c.load i.locals scope index
  others : ∀ scope' index', (scope', index') ≠ (scope, index) →
    r.load scope' index' = c.load i.locals scope' index'
  stack : r.inst.stack = i.stack

theorem load_store (scope : VarScope) (index : Nat) (value : Int32) (next : Nat)
    (i : ScriptInstance) (c : Context) (scope' : VarScope) (index' : Nat) :
    ((Effect.store scope index value).perform next i c).load scope' index' =
      if scope = scope' ∧ index = index' ∧ index' < scope'.capacity then value
      else c.load i.locals scope' index' := by
  cases scope <;> cases scope' <;>
    simp [Effect.perform, Stepped.load, Context.load, VarStore.get_set]

theorem assignResult_updates {scope : VarScope} {index : Nat} (hindex : index < scope.capacity)
    (next pc : Nat) (result : Except Fault Int32) (i : ScriptInstance) (c : Context) :
    (assignResult next scope index result { i with pc } c).Updates scope index result i c := by
  cases result with
  | error f => exact ⟨nofun, fun _ hf => by cases hf; exact ⟨rfl, rfl⟩, fun _ _ _ => rfl, rfl⟩
  | ok value =>
      have hload := load_store scope index value next { i with pc } c
      refine ⟨?value, nofun, ?others, ?stack⟩
      case value =>
        intro x hx
        cases hx
        refine ⟨?_, ?_⟩
        · cases scope <;> rfl
        · rw [assignResult, hload, if_pos ⟨rfl, rfl, hindex⟩]
      case others =>
        intro scope' index' hother
        rw [assignResult, hload, if_neg]
        rintro ⟨rfl, rfl, _⟩
        exact hother rfl
      case stack => cases scope <;> rfl

/-- Storing a result is the same wherever its instructions stand. -/
theorem assignResult_alike (next next' pc pc' : Nat) (scope : VarScope) (index : Nat)
    (result : Except Fault Int32) (i : ScriptInstance) (c : Context) :
    (assignResult next scope index result { i with pc } c).Alike
      (assignResult next' scope index result { i with pc := pc' } c) := by
  cases result with
  | error f => exact ⟨rfl, rfl, rfl, fun _ => rfl⟩
  | ok value => cases scope <;> exact ⟨rfl, rfl, rfl, fun _ => rfl⟩

/-! ## Steps along the code -/

section

variable {bytes : List UInt8} {image : Image} {c : Context}

/-- The instruction at the front of some code, and where the rest of the code stands. -/
theorem Image.fetch_then (hparse : Image.parse bytes = .ok image) {pc : Nat} {op : Opcode}
    {operands rest : List Int32} {instruction : Instruction}
    (hpc : image.program.isBoundary pc = true)
    (hcells : op.code :: (operands ++ rest) <+: (Image.codeArea bytes).toList.drop pc)
    (hmakes : op.form.Makes operands instruction) (hfalls : instruction.fallsThrough = true) :
    image.program.fetch pc = some ⟨instruction, pc + 1 + operands.length⟩ ∧
    image.program.isBoundary (pc + 1 + operands.length) = true ∧
    rest <+: (Image.codeArea bytes).toList.drop (pc + 1 + operands.length) := by
  have hfetch : image.program.fetch pc = some ⟨instruction, pc + 1 + operands.length⟩ := by
    apply Image.fetch_of_cells hparse hpc _ hmakes
    exact (List.prefix_append (op.code :: operands) rest).trans hcells
  refine ⟨hfetch, (Image.sound_of_parse hparse).closed.next _ _ hfetch hfalls, ?_⟩
  obtain ⟨tail, htail⟩ := hcells
  refine ⟨tail, ?_⟩
  rw [Nat.add_assoc, ← List.drop_drop, ← htail, Nat.add_comm 1, List.cons_append,
    List.drop_succ_cons, List.append_assoc, List.drop_left]

theorem Image.fetch_pushNumber (hparse : Image.parse bytes = .ok image) {pc : Nat} {value : Int32}
    {rest : List Int32} (hpc : image.program.isBoundary pc = true)
    (hcells : pushes [value] ++ rest <+: (Image.codeArea bytes).toList.drop pc) :
    image.program.fetch pc = some ⟨.pushNumber value, pc + 2⟩ ∧
    image.program.isBoundary (pc + 2) = true ∧
    rest <+: (Image.codeArea bytes).toList.drop (pc + 2) := by
  have hmakes : Opcode.pushNumber.form.Makes [value] (.pushNumber value) := .number _ value
  exact Image.fetch_then hparse hpc hcells hmakes rfl

theorem Image.fetch_variable (hparse : Image.parse bytes = .ok image) {pc : Nat} (op : VarOp)
    {scope : VarScope} {index : Nat} (hindex : index < scope.capacity) {rest : List Int32}
    (hpc : image.program.isBoundary pc = true)
    (hcells : op.code scope :: Int32.ofNat index :: rest <+:
      (Image.codeArea bytes).toList.drop pc) :
    image.program.fetch pc = some ⟨.variable op scope index, pc + 2⟩ ∧
    image.program.isBoundary (pc + 2) = true ∧
    rest <+: (Image.codeArea bytes).toList.drop (pc + 2) := by
  obtain ⟨opcode, hcode, hform⟩ := op.exists_opcode scope
  rw [← hcode] at hcells
  have hmakes : opcode.form.Makes [Int32.ofNat index] (.variable op scope index) := by
    rw [hform]
    exact .access op scope index hindex
  exact Image.fetch_then hparse hpc hcells hmakes rfl

theorem steps_succ {i i' : ScriptInstance} {c' : Context}
    (hstep : step image i c = ⟨.continue, i', c'⟩) (n : Nat) :
    steps image (n + 1) i c = steps image n i' c' := by
  rw [steps, hstep]

theorem steps_fault {i i' : ScriptInstance} {c' : Context} {f : Fault}
    (hstep : step image i c = ⟨.fault f, i', c'⟩) (n : Nat) :
    steps image (n + 1) i c = ⟨.fault f, i', c'⟩ := by
  rw [steps, hstep]

theorem step_binary {i : ScriptInstance} {operator : BinaryOp} {next : Nat} {left right : Int32}
    {cells : List Int32} (hfetch : image.program.fetch i.pc = some ⟨.binary operator, next⟩)
    (hstack : i.stack = ⟨right :: left :: cells⟩) :
    step image i c = match operator.eval left right with
      | .ok value => pushResult next value { i with stack := ⟨cells⟩ } c
      | .error f => ⟨.fault f, { i with stack := ⟨cells⟩ }, c⟩ := by
  have heffect : (Instruction.binary operator).effect image i c i.stack =
      match operator.eval left right with
      | .ok value => .ok (.push value) ⟨cells⟩
      | .error f => .error f ⟨cells⟩ := by
    rw [hstack]
    simp only [Instruction.effect, Operands.pop, bind, EStateM.bind]
    cases operator.eval left right <;> rfl
  simp only [step, hfetch, heffect]
  cases operator.eval left right <;> rfl

theorem step_assign {i : ScriptInstance} {scope : VarScope} {index next : Nat} {value : Int32}
    {cells : List Int32}
    (hfetch : image.program.fetch i.pc = some ⟨.variable .assign scope index, next⟩)
    (hstack : i.stack = ⟨value :: cells⟩) :
    step image i c =
      assignResult next scope index (.ok value) { i with stack := ⟨cells⟩ } c := by
  have heffect : (Instruction.variable .assign scope index).effect image i c i.stack =
      .ok (.store scope index value) ⟨cells⟩ := by
    rw [hstack]
    rfl
  simp only [step, hfetch, heffect, assignResult]

theorem step_load {i : ScriptInstance} {scope : VarScope} {index next : Nat}
    (hfetch : image.program.fetch i.pc = some ⟨.variable .push scope index, next⟩)
    (hroom : i.stack.cells.length < OperandStack.depth) :
    step image i c = ⟨.continue, { i with
      pc := next, stack := ⟨c.load i.locals scope index :: i.stack.cells⟩ }, c⟩ := by
  have heffect : (Instruction.variable .push scope index).effect image i c i.stack =
      .ok (.push (c.load i.locals scope index)) i.stack := rfl
  simp only [step, hfetch, heffect, Effect.perform, pushResult, OperandStack.push, if_pos hroom]

theorem step_compound {op : VarOp} {plain : Opcode} {operator : BinaryOp}
    (hop : (op, plain, operator) ∈ VarOp.compounds) {i : ScriptInstance} {scope : VarScope}
    {index next : Nat} {value : Int32} {cells : List Int32}
    (hfetch : image.program.fetch i.pc = some ⟨.variable op scope index, next⟩)
    (hstack : i.stack = ⟨value :: cells⟩) :
    step image i c = assignResult next scope index
      (operator.eval (c.load i.locals scope index) value) { i with stack := ⟨cells⟩ } c := by
  have haccess : (Instruction.variable op scope index).effect image i c =
      Instruction.access.compute scope index (c.load i.locals scope index) operator := by
    simp only [VarOp.compounds, List.mem_cons, Prod.mk.injEq, List.not_mem_nil, or_false] at hop
    obtain ⟨rfl, -, rfl⟩ | ⟨rfl, -, rfl⟩ | ⟨rfl, -, rfl⟩ | ⟨rfl, -, rfl⟩ | ⟨rfl, -, rfl⟩ := hop <;>
      rfl
  have heffect : (Instruction.variable op scope index).effect image i c i.stack =
      match operator.eval (c.load i.locals scope index) value with
      | .ok x => .ok (.store scope index x) ⟨cells⟩
      | .error f => .error f ⟨cells⟩ := by
    rw [haccess, hstack]
    simp only [Instruction.access.compute, Operands.pop, bind, EStateM.bind]
    cases operator.eval (c.load i.locals scope index) value <;> rfl
  simp only [step, hfetch, heffect, assignResult]
  cases operator.eval (c.load i.locals scope index) value <;> rfl

theorem step_count {op compound : VarOp} {operator : BinaryOp}
    (hop : (op, compound, operator) ∈ VarOp.counts) {i : ScriptInstance} {scope : VarScope}
    {index next : Nat}
    (hfetch : image.program.fetch i.pc = some ⟨.variable op scope index, next⟩) :
    step image i c = assignResult next scope index
      (operator.eval (c.load i.locals scope index) 1) i c := by
  have heffect : ∃ x, operator.eval (c.load i.locals scope index) 1 = .ok x ∧
      (Instruction.variable op scope index).effect image i c i.stack =
        .ok (.store scope index x) i.stack := by
    simp only [VarOp.counts, List.mem_cons, Prod.mk.injEq, List.not_mem_nil, or_false] at hop
    obtain ⟨rfl, -, rfl⟩ | ⟨rfl, -, rfl⟩ := hop <;> exact ⟨_, rfl, rfl⟩
  obtain ⟨x, hx, heffect⟩ := heffect
  simp only [step, hfetch, heffect, hx, assignResult]

/-- A number and a variable instruction that applies an operator to it. -/
theorem steps_compound (hparse : Image.parse bytes = .ok image) {op : VarOp} {plain : Opcode}
    {operator : BinaryOp} (hop : (op, plain, operator) ∈ VarOp.compounds) {scope : VarScope}
    {index : Nat} (hindex : index < scope.capacity) (value : Int32) {i : ScriptInstance}
    (hpc : image.program.isBoundary i.pc = true)
    (hcells : pushes [value] ++ [op.code scope, Int32.ofNat index] <+:
      (Image.codeArea bytes).toList.drop i.pc)
    (hroom : i.stack.cells.length < OperandStack.depth) :
    steps image 2 i c = assignResult (i.pc + 4) scope index
      (operator.eval (c.load i.locals scope index) value) { i with pc := i.pc + 2 } c := by
  obtain ⟨hpush, hpc₂, hcells₂⟩ := Image.fetch_pushNumber hparse hpc hcells
  obtain ⟨hvariable, -, -⟩ := Image.fetch_variable hparse op hindex hpc₂ hcells₂
  rw [steps_succ (step_pushNumber hpush hroom), steps_one, step_compound hop hvariable rfl]

/-- A variable loaded, a number pushed, an operator applied to both and its result stored. -/
theorem steps_expansion (hparse : Image.parse bytes = .ok image) {plain : Opcode}
    {operator : BinaryOp} (hplain : plain.form = .plain (.binary operator)) {scope : VarScope}
    {index : Nat} (hindex : index < scope.capacity) (value : Int32) {i : ScriptInstance}
    (hpc : image.program.isBoundary i.pc = true)
    (hcells : [VarOp.push.code scope, Int32.ofNat index] ++ pushes [value] ++
        [plain.code, VarOp.assign.code scope, Int32.ofNat index] <+:
      (Image.codeArea bytes).toList.drop i.pc)
    (hroom : i.stack.cells.length + 2 ≤ OperandStack.depth) :
    steps image 4 i c = assignResult (i.pc + 7) scope index
      (operator.eval (c.load i.locals scope index) value) { i with pc := i.pc + 4 } c := by
  obtain ⟨hload, hpc₂, hcells₂⟩ := Image.fetch_variable hparse .push hindex hpc hcells
  obtain ⟨hpush, hpc₃, hcells₃⟩ := Image.fetch_pushNumber hparse hpc₂ hcells₂
  have hmakes : plain.form.Makes [] (.binary operator) := by
    rw [hplain]
    exact .plain _
  obtain ⟨hbinary, hpc₄, hcells₄⟩ := Image.fetch_then hparse hpc₃ hcells₃ hmakes rfl
  obtain ⟨hassign, -, -⟩ := Image.fetch_variable hparse .assign hindex hpc₄ hcells₄
  have happly := step_binary (c := c) (i := { i with
    pc := i.pc + 2 + 2
    stack := ⟨value :: c.load i.locals scope index :: i.stack.cells⟩ }) hbinary rfl
  rw [steps_succ (step_load hload (by omega)),
    steps_succ (step_pushNumber hpush (by rw [List.length_cons]; omega))]
  cases hresult : operator.eval (c.load i.locals scope index) value with
  | error f =>
      rw [hresult] at happly
      rw [steps_fault happly]
      rfl
  | ok x =>
      have hlength : i.stack.cells.length < OperandStack.depth := by omega
      rw [hresult] at happly
      simp only [pushResult, OperandStack.push, if_pos hlength] at happly
      rw [steps_succ happly, steps_one, step_assign hassign rfl]
      -- the assignment sets the place anew, so that it does not matter where it stands
      cases scope <;> rfl

end

/-- A variable instruction that applies an operator ends as its expansion does: with the same step,
which is a fault where the operator has no result, the same variables and the same operands.  A
variable instruction that counts ends as the one that does so by one.  Whatever they end with, no
variable changes but their own, which takes the result if there is one. -/
theorem variable_alike_expansion {bytes : List UInt8} {image : Image}
    (hparse : Image.parse bytes = .ok image) (scope : VarScope) (index : Nat)
    (hindex : index < scope.capacity) (a b : Nat) (ha : image.program.isBoundary a = true)
    (hb : image.program.isBoundary b = true) (i : ScriptInstance) (c : Context)
    (hroom : i.stack.cells.length + 2 ≤ OperandStack.depth) :
    let slot := Int32.ofNat index
    let current := c.load i.locals scope index
    (∀ op plain operator value, (op, plain, operator) ∈ VarOp.compounds →
      pushes [value] ++ [op.code scope, slot] <+: (Image.codeArea bytes).toList.drop a →
      [VarOp.push.code scope, slot] ++ pushes [value] ++
        [plain.code, VarOp.assign.code scope, slot] <+:
          (Image.codeArea bytes).toList.drop b →
      let compound := steps image 2 { i with pc := a } c
      let expansion := steps image 4 { i with pc := b } c
      compound.Alike expansion ∧
      compound.Updates scope index (operator.eval current value) i c ∧
      expansion.Updates scope index (operator.eval current value) i c) ∧
    ∀ op compound operator, (op, compound, operator) ∈ VarOp.counts →
      [op.code scope, slot] <+: (Image.codeArea bytes).toList.drop a →
      pushes [1] ++ [compound.code scope, slot] <+: (Image.codeArea bytes).toList.drop b →
      let count := step image { i with pc := a } c
      let expansion := steps image 2 { i with pc := b } c
      count.Alike expansion ∧
      count.Updates scope index (operator.eval current 1) i c ∧
      expansion.Updates scope index (operator.eval current 1) i c := by
  refine ⟨fun op plain operator value hop hcompound hexpansion => ?_,
    fun op compound operator hop hcount hexpansion => ?_⟩
  · have hplain : plain.form = .plain (.binary operator) := VarOp.form_of_compounds _ hop
    have hshort : steps image 2 { i with pc := a } c = assignResult (a + 4) scope index
        (operator.eval (c.load i.locals scope index) value) { i with pc := a + 2 } c :=
      steps_compound hparse hop hindex value ha hcompound (Nat.lt_of_succ_lt hroom)
    have hfull : steps image 4 { i with pc := b } c = assignResult (b + 7) scope index
        (operator.eval (c.load i.locals scope index) value) { i with pc := b + 4 } c :=
      steps_expansion hparse hplain hindex value hb hexpansion hroom
    rw [hshort, hfull]
    exact ⟨assignResult_alike .., assignResult_updates hindex .., assignResult_updates hindex ..⟩
  · obtain ⟨plain, hplain⟩ := VarOp.compounds_of_counts _ hop
    obtain ⟨hfetch, -, -⟩ := Image.fetch_variable hparse op hindex ha hcount
    have hshort : step image { i with pc := a } c = assignResult (a + 2) scope index
        (operator.eval (c.load i.locals scope index) 1) { i with pc := a } c :=
      step_count hop hfetch
    have hfull : steps image 2 { i with pc := b } c = assignResult (b + 4) scope index
        (operator.eval (c.load i.locals scope index) 1) { i with pc := b + 2 } c :=
      steps_compound hparse hplain hindex 1 hb hexpansion (Nat.lt_of_succ_lt hroom)
    rw [hshort, hfull]
    exact ⟨assignResult_alike .., assignResult_updates hindex .., assignResult_updates hindex ..⟩

/-- A division of a map variable by zero and a world variable counted up, both in short and in
full. -/
def shorthandBytes : List UInt8 :=
  Word.join [0x534341, 80, 3, 0, 41, 5, 29, 5, 3, 0, 17, 26, 5, 48, 63, 3, 1, 33, 63, 1,
    1, 1001, 8, 0, 0]

def shorthandImage : Image := (Image.parse shorthandBytes).toOption.getD .empty

/-- The world variable has the greatest value there is. -/
def shorthandContext : Context where
  world := VarStore.zero.set 63 Int32.maxValue
  map := VarStore.zero.set 5 7
  print := .new 128
  rng := .ofSeed 5
  host := .new

/-- The division faults either way and leaves the variable; counting up starts over at the least
value. -/
theorem variable_alike_expansion_shorthand :
    let i := ScriptInstance.new 0 ⟨1, 2, 0, true⟩ .zero .none
    let c := shorthandContext
    let division := steps shorthandImage 2 { i with pc := 2 } c
    let count := step shorthandImage { i with pc := 13 } c
    (division.Alike (steps shorthandImage 4 { i with pc := 6 } c) ∧
      division.ending = .fault .divideByZero ∧ division.load .map 5 = 7) ∧
    count.Alike (steps shorthandImage 2 { i with pc := 15 } c) ∧
      count.load .world 63 = Int32.minValue ∧ count.load .world 62 = 0 := by
  have hparse : Image.parse shorthandBytes = .ok shorthandImage := by decide +kernel
  intro i c division count
  obtain ⟨hdivision, hdivided, -⟩ := (variable_alike_expansion hparse .map 5 (by decide) 2 6
    (by decide +kernel) (by decide +kernel) i c (by decide)).1 .div .divide .divide 0 (by decide)
    (by decide +kernel) (by decide +kernel)
  obtain ⟨hcount, hcounted, -⟩ := (variable_alike_expansion hparse .world 63 (by decide) 13 15
    (by decide +kernel) (by decide +kernel) i c (by decide)).2 .inc .add .add (by decide)
    (by decide +kernel) (by decide +kernel)
  have hfault : BinaryOp.divide.eval (c.load i.locals .map 5) 0 = .error .divideByZero := rfl
  have hvalue : BinaryOp.add.eval (c.load i.locals .world 63) 1 = .ok Int32.minValue := by
    decide +kernel
  have hother : c.load i.locals .world 62 = 0 := by decide +kernel
  have hkept : c.load i.locals .map 5 = 7 := by decide +kernel
  refine ⟨⟨hdivision, (hdivided.fault _ hfault).1, ?_⟩, hcount, (hcounted.value _ hvalue).2, ?_⟩
  · rw [(hdivided.fault _ hfault).2, hkept]
  · rw [hcounted.others .world 62 (by decide), hother]

end MapScript
