import MapScript.Proofs.Interpreter.Effects

/-!
# Kinds of effects

What an instruction can do at all, whatever it finds on the stack.  `effect_kinds` is the one walk
through the instructions from which follow statements such as "only these instructions draw random
numbers".
-/

namespace MapScript

namespace Effect

inductive Kind where
  | nothing | push | draw | store | jump | terminate | pause | emit | request | print
deriving DecidableEq

def kind : Effect → Kind
  | nothing => .nothing
  | push _ => .push
  | draw _ _ => .draw
  | store _ _ _ => .store
  | jump _ => .jump
  | terminate => .terminate
  | sleep _ | await _ => .pause
  | emit _ => .emit
  | request _ => .request
  | clearPrint | print _ => .print

theorem kind_special (code : Int32) (args : SpecialArgs) (trigger : Trigger) :
    (special code args trigger).kind ∈ [Kind.emit, .request] := by
  unfold special
  simp only
  split
  · exact .tail _ (.head _)
  · split
    · exact .tail _ (.head _)
    · split
      · exact .tail _ (.head _)
      · exact .head _

end Effect

namespace Operands.Obeys

theorem imp {α : Type} {m : Operands α} {P P' : α → Prop} {Q Q' : Fault → Prop}
    (h : m.Obeys P Q) (hP : ∀ a, P a → P' a) (hQ : ∀ f, Q f → Q' f) : m.Obeys P' Q' := by
  intro s
  have hs := h s
  cases hm : m s with
  | ok a s' =>
      rw [hm] at hs
      exact ⟨hs.1, hP a hs.2⟩
  | error f s' =>
      rw [hm] at hs
      exact ⟨hs.1, hQ f hs.2⟩

end Operands.Obeys

namespace Instruction

open Operands

/-- The kinds of the effects that an instruction can have. -/
def kinds : Instruction → List Effect.Kind
  | nop | drop => [.nothing]
  | terminate => [.terminate]
  | suspend | delay | delayDirect _ | tagWait | tagWaitDirect _ | polyWait | polyWaitDirect _
  | scriptWait | scriptWaitDirect _ => [.pause]
  | pushNumber _ | binary _ | unary _ | thingCount | thingCountDirect _ _ | lineSide
  | playerCount | gameType | gameSkill | timer => [.push]
  | lineSpecial _ _ | lineSpecialDirect _ _ _ => [.emit, .request]
  | .variable op _ _ => if op = .push then [.push] else [.store]
  | goto _ | restart => [.jump]
  | ifGoto _ | ifNotGoto _ | caseGoto _ _ => [.jump, .nothing]
  | random | randomDirect _ _ => [.draw]
  | changeFlat _ | changeFlatDirect _ _ _ | endPrint | endPrintBold | sectorSound | ambientSound
  | soundSequence | thingSound | setLineTexture | setLineBlocking | setLineSpecial => [.emit]
  | clearLineSpecial => [.emit, .nothing]
  | beginPrint | printString | printNumber | printCharacter => [.print]
  | unknown _ => []

variable {image : Image} {i : ScriptInstance} {c : Context}

/-- The effect is of one of the kinds. -/
abbrev Within (kinds : List Effect.Kind) (m : Operands Effect) : Prop :=
  m.Obeys (·.kind ∈ kinds) fun _ => True

theorem access_within (op : VarOp) (scope : VarScope) (index : Nat) (current : Int32) :
    Within (if op = .push then [.push] else [.store]) (access op scope index current) := by
  have hcompute : ∀ operator, Within [.store] (access.compute scope index current operator) := by
    intro operator
    refine .bind (.pop trivial) fun value _ => ?_
    exact .bind (.orFault fun _ _ => trivial) fun _ _ => .pure (.head _)
  cases op with
  | push | inc | dec => exact .pure (.head _)
  | assign => exact .bind (.pop trivial) fun _ _ => .pure (.head _)
  | add | sub | mul | div | mod => exact hcompute _

theorem effect_kinds (instruction : Instruction) :
    Within instruction.kinds (instruction.effect image i c) := by
  have htext : (popString image).Obeys (fun _ => True) fun _ => True :=
    .popString trivial fun _ => trivial
  cases instruction with
  | lineSpecial code argc =>
      exact .bind (.popArgs trivial argc) fun args _ => .pure (Effect.kind_special code args _)
  | lineSpecialDirect code argc args => exact .pure (Effect.kind_special code args _)
  | «variable» op scope index => exact access_within op scope index _
  | binary op =>
      refine .bind (.pop trivial) fun right _ => .bind (.pop trivial) fun left _ => ?_
      exact .bind (.orFault fun _ _ => trivial) fun _ _ => .pure (.head _)
  | ifGoto target | ifNotGoto target =>
      refine .bind (.pop trivial) fun value _ => .pure ?_
      split
      · exact .head _
      · exact .tail _ (.head _)
  | caseGoto value target =>
      refine .bind (.top trivial) fun top _ => ?_
      split
      · exact .bind (.pop trivial) fun _ _ => .pure (.head _)
      · exact .pure (.tail _ (.head _))
  | unary | drop | delay | tagWait | polyWait | scriptWait | printNumber | printCharacter =>
      exact .bind (.pop trivial) fun _ _ => .pure (.head _)
  | random | thingCount | setLineBlocking =>
      exact .bind (.pop trivial) fun _ _ => .bind (.pop trivial) fun _ _ => .pure (.head _)
  | printString | soundSequence => exact .bind htext fun _ _ => .pure (.head _)
  | changeFlat surface =>
      exact .bind htext fun _ _ => .bind (.pop trivial) fun _ _ => .pure (.head _)
  | sectorSound | ambientSound =>
      exact .bind (.pop trivial) fun _ _ => .bind htext fun _ _ => .pure (.head _)
  | thingSound =>
      exact .bind (.pop trivial) fun _ _ => .bind htext fun _ _ =>
        .bind (.pop trivial) fun _ _ => .pure (.head _)
  | setLineTexture =>
      exact .bind htext fun _ _ => .bind (.pop trivial) fun _ _ =>
        .bind (.pop trivial) fun _ _ => .bind (.pop trivial) fun _ _ => .pure (.head _)
  | setLineSpecial =>
      exact .bind (.popArgs trivial specialArgCount) fun _ _ => .bind (.pop trivial) fun _ _ =>
        .bind (.pop trivial) fun _ _ => .pure (.head _)
  | changeFlatDirect surface tag flat =>
      simp only [effect]
      split
      · exact .pure (.head _)
      · exact .throw trivial
  | restart =>
      simp only [effect]
      split
      · exact .pure (.head _)
      · exact .throw trivial
  | clearLineSpecial =>
      simp only [effect]
      split
      · exact .pure (.head _)
      · exact .pure (.tail _ (.head _))
  | unknown code => exact .throw trivial
  | _ => exact .pure (.head _)

section

variable {instruction : Instruction} {s s' : OperandStack}

theorem of_effect_ok {effect : Effect} (h : instruction.effect image i c s = .ok effect s') :
    s'.cells <:+ s.cells ∧ effect.kind ∈ instruction.kinds := by
  have hkinds : Within instruction.kinds (instruction.effect image i c) := effect_kinds instruction
  have hs := hkinds s
  rw [h] at hs
  exact hs

theorem suffix_of_effect_error {f : Fault} (h : instruction.effect image i c s = .error f s') :
    s'.cells <:+ s.cells := by
  have hkinds : Within instruction.kinds (instruction.effect image i c) := effect_kinds instruction
  have hs := hkinds s
  rw [h] at hs
  exact hs.1

end

end Instruction

end MapScript
