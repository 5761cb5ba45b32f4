import MapScript.Interpreter.Effect

/-!
# Taking operands

A small logic for computations on operand stacks: what they return, how they
fault, and that they only take operands off the stack.  With it, `effect_obeys`
says of every instruction where it can send execution.
-/

namespace MapScript

namespace Operands

variable {α β : Type}

/-- From any stack the computation only takes operands off, what it returns
satisfies `P`, and its faults satisfy `Q`. -/
def Obeys (m : Operands α) (P : α → Prop) (Q : Fault → Prop) : Prop :=
  ∀ s, match m s with
    | .ok a s' => s'.cells <:+ s.cells ∧ P a
    | .error f s' => s'.cells <:+ s.cells ∧ Q f

namespace Obeys

variable {m : Operands α} {f : α → Operands β} {P : α → Prop} {R : β → Prop} {Q : Fault → Prop}

theorem pure {a : α} (h : P a) : Obeys (Pure.pure a) P Q :=
  fun s => ⟨List.suffix_refl s.cells, h⟩

theorem throw {fault : Fault} (h : Q fault) : Obeys (throw fault : Operands α) P Q :=
  fun s => ⟨List.suffix_refl s.cells, h⟩

theorem bind (hm : Obeys m P Q) (hf : ∀ a, P a → Obeys (f a) R Q) : Obeys (m >>= f) R Q := by
  intro s
  have hm := hm s
  simp only [Bind.bind, EStateM.bind]
  cases hs : m s with
  | error fault s' =>
      rw [hs] at hm
      exact hm
  | ok a s' =>
      rw [hs] at hm
      have hf := hf a hm.2 s'
      cases hs' : f a s' with
      | error fault s'' =>
          rw [hs'] at hf
          simp only [hs']
          exact ⟨hf.1.trans hm.1, hf.2⟩
      | ok b s'' =>
          rw [hs'] at hf
          simp only [hs']
          exact ⟨hf.1.trans hm.1, hf.2⟩

theorem pop (hQ : Q .stackUnderflow) : Obeys Operands.pop (fun _ => True) Q := by
  intro s
  unfold Operands.pop
  cases hs : s.cells with
  | nil => exact ⟨hs ▸ List.suffix_refl [], hQ⟩
  | cons v rest => exact ⟨List.suffix_cons v rest, trivial⟩

theorem top (hQ : Q .stackUnderflow) : Obeys Operands.top (fun _ => True) Q := by
  intro s
  unfold Operands.top
  cases hs : s.cells with
  | nil => exact ⟨hs ▸ List.suffix_refl [], hQ⟩
  | cons v rest => exact ⟨hs ▸ List.suffix_refl _, trivial⟩

theorem popMany (hQ : Q .stackUnderflow) (n : Nat) :
    Obeys (Operands.popMany n) (fun _ => True) Q := by
  induction n with
  | zero => exact .pure trivial
  | succ n ih => exact .bind (.pop hQ) fun _ _ => .bind ih fun _ _ => .pure trivial

theorem popArgs (hQ : Q .stackUnderflow) (argc : Nat) :
    Obeys (Operands.popArgs argc) (fun _ => True) Q :=
  .bind (.popMany hQ argc) fun _ _ => .pure trivial

theorem orFault {x : Except Fault α} (hQ : ∀ fault, x = .error fault → Q fault) :
    Obeys (Operands.orFault x) (fun _ => True) Q := by
  cases x with
  | ok a => exact .pure trivial
  | error fault => exact .throw (hQ fault rfl)

theorem popString {image : Image} (hQ : Q .stackUnderflow) (hbad : ∀ index, Q (.badString index)) :
    Obeys (Operands.popString image) (fun _ => True) Q := by
  refine .bind (.pop hQ) fun index _ => ?_
  cases image.string? index with
  | some text => exact .pure trivial
  | none => exact .throw (hbad index)

end Obeys

end Operands

/-- A fault of running an instruction, not of looking for one. -/
def Fault.InCode (f : Fault) : Prop := ∀ pc, f ≠ .badInstructionPointer pc

theorem BinaryOp.inCode_of_eval {op : BinaryOp} {left right : Int32} {f : Fault}
    (h : op.eval left right = .error f) : f.InCode := by
  cases op <;> simp only [BinaryOp.eval] at h <;> try cases h
  all_goals
    split at h
    · cases h
      exact fun pc => nofun
    · cases h

/-- Where an instruction may send execution: to its branch target, back to the
entry of its script, out of the script, or to the cell after it. -/
def Effect.Allowed (image : Image) (i : ScriptInstance) (instruction : Instruction) :
    Effect → Prop
  | .jump target => instruction.branchTarget? = some target ∨
      ∃ info, image.scripts[i.definition]? = some info ∧ info.entry = target
  | .terminate => True
  | _ => instruction.fallsThrough = true

namespace Instruction

open Operands

variable {image : Image} {i : ScriptInstance} {c : Context}

theorem access_obeys {instruction : Instruction} {op : VarOp} {scope : VarScope} {index : Nat}
    {current : Int32} (hfalls : instruction.fallsThrough = true) :
    (access op scope index current).Obeys (Effect.Allowed image i instruction) Fault.InCode := by
  have hcompute : ∀ operator, (access.compute scope index current operator).Obeys
      (Effect.Allowed image i instruction) Fault.InCode := by
    intro operator
    refine .bind (.pop nofun) fun value _ => ?_
    exact .bind (.orFault fun f h => BinaryOp.inCode_of_eval h) fun _ _ => .pure hfalls
  cases op with
  | push => exact .pure hfalls
  | assign => exact .bind (.pop nofun) fun _ _ => .pure hfalls
  | inc => exact .pure hfalls
  | dec => exact .pure hfalls
  | add => exact hcompute .add
  | sub => exact hcompute .subtract
  | mul => exact hcompute .multiply
  | div => exact hcompute .divide
  | mod => exact hcompute .modulus

theorem special_allowed {instruction : Instruction} (hfalls : instruction.fallsThrough = true)
    (code : Int32) (args : SpecialArgs) (trigger : Trigger) :
    (Effect.special code args trigger).Allowed image i instruction := by
  unfold Effect.special
  simp only
  split
  · exact hfalls
  · split
    · exact hfalls
    · split <;> exact hfalls

/-- Every instruction of a script that the image declares takes operands off the
stack, sends execution where it may, and faults only in its own work. -/
theorem effect_obeys (instruction : Instruction) {info : ScriptInfo}
    (hdef : image.scripts[i.definition]? = some info) :
    (instruction.effect image i c).Obeys (Effect.Allowed image i instruction) Fault.InCode := by
  cases instruction with
  | nop => exact .pure rfl
  | terminate => exact .pure trivial
  | suspend => exact .pure rfl
  | pushNumber value => exact .pure rfl
  | lineSpecial code argc =>
      exact .bind (.popArgs nofun argc) fun args _ => .pure (special_allowed rfl ..)
  | lineSpecialDirect code argc args => exact .pure (special_allowed rfl ..)
  | binary op =>
      refine .bind (.pop nofun) fun right _ => .bind (.pop nofun) fun left _ => ?_
      exact .bind (.orFault fun f h => BinaryOp.inCode_of_eval h) fun _ _ => .pure rfl
  | unary op => exact .bind (.pop nofun) fun _ _ => .pure rfl
  | «variable» op scope index => exact access_obeys rfl
  | goto target => exact .pure (.inl rfl)
  | ifGoto target =>
      refine .bind (.pop nofun) fun value _ => .pure ?_
      split
      · exact .inl rfl
      · rfl
  | ifNotGoto target =>
      refine .bind (.pop nofun) fun value _ => .pure ?_
      split
      · exact .inl rfl
      · rfl
  | caseGoto value target =>
      refine .bind (.top nofun) fun top _ => ?_
      split
      · exact .bind (.pop nofun) fun _ _ => .pure (.inl rfl)
      · exact .pure rfl
  | drop => exact .bind (.pop nofun) fun _ _ => .pure rfl
  | delay => exact .bind (.pop nofun) fun _ _ => .pure rfl
  | delayDirect ticks => exact .pure rfl
  | random => exact .bind (.pop nofun) fun _ _ => .bind (.pop nofun) fun _ _ => .pure rfl
  | randomDirect min max => exact .pure rfl
  | thingCount => exact .bind (.pop nofun) fun _ _ => .bind (.pop nofun) fun _ _ => .pure rfl
  | thingCountDirect thingType tid => exact .pure rfl
  | tagWait => exact .bind (.pop nofun) fun _ _ => .pure rfl
  | tagWaitDirect tag => exact .pure rfl
  | polyWait => exact .bind (.pop nofun) fun _ _ => .pure rfl
  | polyWaitDirect poly => exact .pure rfl
  | scriptWait => exact .bind (.pop nofun) fun _ _ => .pure rfl
  | scriptWaitDirect script => exact .pure rfl
  | changeFlat surface =>
      exact .bind (.popString nofun nofun) fun _ _ => .bind (.pop nofun) fun _ _ => .pure rfl
  | changeFlatDirect surface tag flat =>
      simp only [effect]
      split
      · exact .pure rfl
      · exact .throw nofun
  | restart =>
      simp only [effect, hdef]
      exact .pure (.inr ⟨info, hdef, rfl⟩)
  | lineSide => exact .pure rfl
  | clearLineSpecial =>
      simp only [effect]
      split <;> exact .pure rfl
  | beginPrint => exact .pure rfl
  | printString => exact .bind (.popString nofun nofun) fun _ _ => .pure rfl
  | printNumber => exact .bind (.pop nofun) fun _ _ => .pure rfl
  | printCharacter => exact .bind (.pop nofun) fun _ _ => .pure rfl
  | endPrint => exact .pure rfl
  | endPrintBold => exact .pure rfl
  | playerCount => exact .pure rfl
  | gameType => exact .pure rfl
  | gameSkill => exact .pure rfl
  | timer => exact .pure rfl
  | sectorSound =>
      exact .bind (.pop nofun) fun _ _ => .bind (.popString nofun nofun) fun _ _ => .pure rfl
  | ambientSound =>
      exact .bind (.pop nofun) fun _ _ => .bind (.popString nofun nofun) fun _ _ => .pure rfl
  | soundSequence => exact .bind (.popString nofun nofun) fun _ _ => .pure rfl
  | thingSound =>
      exact .bind (.pop nofun) fun _ _ => .bind (.popString nofun nofun) fun _ _ =>
        .bind (.pop nofun) fun _ _ => .pure rfl
  | setLineTexture =>
      exact .bind (.popString nofun nofun) fun _ _ => .bind (.pop nofun) fun _ _ =>
        .bind (.pop nofun) fun _ _ => .bind (.pop nofun) fun _ _ => .pure rfl
  | setLineBlocking =>
      exact .bind (.pop nofun) fun _ _ => .bind (.pop nofun) fun _ _ => .pure rfl
  | setLineSpecial =>
      exact .bind (.popArgs nofun specialArgCount) fun _ _ => .bind (.pop nofun) fun _ _ =>
        .bind (.pop nofun) fun _ _ => .pure rfl
  | unknown code => exact .throw nofun

end Instruction

end MapScript
