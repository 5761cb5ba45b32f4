import MapScript.Proofs.Interpreter.Kinds
import MapScript.Proofs.Interpreter.Slices

/-!
# Line specials of a slice

The specials 80, 81 and 82 act on scripts, and no other instruction does.  `specialsFrom` lists the
line specials that a slice executes; the requests it leaves behind are those of the list, in order.
-/

namespace MapScript

/-- A line special as an instance executes it. -/
structure LineSpecial where
  code : Int32
  args : SpecialArgs
  trigger : Trigger

/-- What a special does to the script it names. -/
def ActionKind.ofSpecial? (code : Int32) : Option ActionKind :=
  if code = 80 then some .execute
  else if code = 81 then some .suspend
  else if code = 82 then some .terminate
  else none

/-- The request of a special that acts on scripts: the script, the map and three arguments. -/
def LineSpecial.request? (s : LineSpecial) : Option ScriptRequest :=
  let arg : Fin 5 → Int32 := s.args.get
  (ActionKind.ofSpecial? s.code).map fun kind =>
    { kind, script := arg 0, map := arg 1, args := #v[arg 2, arg 3, arg 4, 0, 0],
      trigger := s.trigger }

/-- The line special that an instruction executes, where its arguments are on the stack. -/
def Instruction.special? (i : ScriptInstance) : Instruction → Option LineSpecial
  | .lineSpecial code argc =>
    match Operands.popArgs argc i.stack with
    | .ok args _ => some ⟨code, args, i.trigger⟩
    | .error _ _ => none
  | .lineSpecialDirect code _ args => some ⟨code, args, i.trigger⟩
  | _ => none

def specialAt (image : Image) (i : ScriptInstance) : Option LineSpecial :=
  (image.program.fetch i.pc).bind fun d => d.instruction.special? i

/-- The line specials executed by at most `fuel` instructions, in order. -/
def specialsFrom (image : Image) : Nat → ScriptInstance → Context → List LineSpecial
  | 0, _, _ => []
  | fuel + 1, i, c =>
    (specialAt image i).toList ++
      match (step image i c).ending with
      | .continue => specialsFrom image fuel (step image i c).inst (step image i c).context
      | _ => []

/-! ## What an effect asks for -/

def Effect.requests : Effect → List ScriptRequest
  | .request r => [r]
  | _ => []

namespace Effect

theorem requests_special (code : Int32) (args : SpecialArgs) (trigger : Trigger) :
    (Effect.special code args trigger).requests =
      (LineSpecial.request? ⟨code, args, trigger⟩).toList := by
  unfold Effect.special LineSpecial.request? ActionKind.ofSpecial?
  simp only
  by_cases hexecute : code = 80
  · rw [if_pos hexecute, if_pos hexecute]
    rfl
  · rw [if_neg hexecute, if_neg hexecute]
    by_cases hsuspend : code = 81
    · rw [if_pos hsuspend, if_pos hsuspend]
      rfl
    · rw [if_neg hsuspend, if_neg hsuspend]
      by_cases hterminate : code = 82
      · rw [if_pos hterminate, if_pos hterminate]
        rfl
      · rw [if_neg hterminate, if_neg hterminate]
        rfl

theorem requests_perform (effect : Effect) (next : Nat) (i : ScriptInstance) (c : Context) :
    (effect.perform next i c).context.requests.toList = c.requests.toList ++ effect.requests := by
  cases effect with
  | request r => simp [Effect.perform, Effect.requests]
  | push value => simp [Effect.perform, Effect.requests, context_pushResult]
  | draw min max => simp [Effect.perform, Effect.requests, context_pushResult]
  | store scope index value => cases scope <;> simp [Effect.perform, Effect.requests]
  | _ => simp [Effect.perform, Effect.requests, Context.appendPrint]

end Effect

/-! ## What an instruction asks for -/

namespace Instruction

open Operands

variable {image : Image} {i : ScriptInstance} {c : Context}

/-- The effect asks for nothing. -/
abbrev Silent (m : Operands Effect) : Prop :=
  m.Obeys (fun effect => effect.requests = []) fun _ => True

/-- No instruction asks for anything but the two that execute line specials. -/
theorem effect_silent (instruction : Instruction)
    (hstack : ∀ code argc, instruction ≠ .lineSpecial code argc)
    (hdirect : ∀ code argc args, instruction ≠ .lineSpecialDirect code argc args) :
    Silent (instruction.effect image i c) := by
  have hkinds : .request ∉ instruction.kinds := by
    cases instruction with
    | lineSpecial code argc => exact absurd rfl (hstack code argc)
    | lineSpecialDirect code argc args => exact absurd rfl (hdirect code argc args)
    | «variable» op scope index => cases op <;> simp [kinds]
    | _ => simp [kinds]
  refine (effect_kinds instruction).imp (fun effect hkind => ?_) fun _ h => h
  cases effect with
  | request r => exact absurd hkind hkinds
  | _ => rfl

/-- The requests of a special that may not have been executed. -/
def requests (i : ScriptInstance) (instruction : Instruction) : List ScriptRequest :=
  ((instruction.special? i).bind LineSpecial.request?).toList

theorem requests_effect (instruction : Instruction) :
    match instruction.effect image i c i.stack with
    | .ok effect _ => effect.requests = instruction.requests i
    | .error _ _ => instruction.requests i = [] := by
  by_cases hstack : ∃ code argc, instruction = .lineSpecial code argc
  · obtain ⟨code, argc, rfl⟩ := hstack
    cases hpop : popArgs argc i.stack with
    | ok args stack =>
        simp only [effect, requests, special?, Bind.bind, EStateM.bind, hpop, Option.bind_some]
        exact Effect.requests_special code args i.trigger
    | error f stack =>
        simp only [effect, requests, special?, Bind.bind, EStateM.bind, hpop]
        rfl
  by_cases hdirect : ∃ code argc args, instruction = .lineSpecialDirect code argc args
  · obtain ⟨code, argc, args, rfl⟩ := hdirect
    exact Effect.requests_special code args i.trigger
  have hnone : instruction.requests i = [] := by
    cases instruction with
    | lineSpecial code argc => exact absurd ⟨code, argc, rfl⟩ hstack
    | lineSpecialDirect code argc args => exact absurd ⟨code, argc, args, rfl⟩ hdirect
    | _ => rfl
  have hsilent := @effect_silent image i c instruction
    (fun code argc h => hstack ⟨code, argc, h⟩)
    (fun code argc args h => hdirect ⟨code, argc, args, h⟩) i.stack
  cases heffect : instruction.effect image i c i.stack with
  | ok effect stack =>
      rw [heffect] at hsilent
      exact hsilent.2.trans hnone.symm
  | error f stack => exact hnone

end Instruction

/-! ## Steps and slices -/

section

variable (image : Image) (i : ScriptInstance) (c : Context)

theorem requests_step :
    (step image i c).context.requests.toList =
      c.requests.toList ++ (specialAt image i).toList.filterMap LineSpecial.request? := by
  unfold step specialAt
  cases hfetch : image.program.fetch i.pc with
  | none => simp
  | some d =>
      have heffect := @Instruction.requests_effect image i c d.instruction
      have hspecial : ((d.instruction.special? i).toList.filterMap LineSpecial.request?) =
          d.instruction.requests i := by
        rw [Instruction.requests]
        cases d.instruction.special? i with
        | none => rfl
        | some special => cases hrequest : special.request? <;> simp [hrequest]
      simp only [Option.bind_some, hspecial]
      cases hrun : d.instruction.effect image i c i.stack with
      | ok effect stack =>
          rw [hrun] at heffect
          simp only
          rw [Effect.requests_perform, heffect]
      | error f stack =>
          rw [hrun] at heffect
          simp only at heffect
          rw [heffect, List.append_nil]

/-- A slice raises exactly the requests of the line specials it executes. -/
theorem requests_sliceFrom (limit : UInt32) (fuel : Nat) :
    (sliceFrom image limit fuel i c).context.requests.toList =
      c.requests.toList ++ (specialsFrom image fuel i c).filterMap LineSpecial.request? := by
  induction fuel generalizing i c with
  | zero => simp [sliceFrom, specialsFrom]
  | succ fuel ih =>
      have hstep := requests_step image i c
      simp only [sliceFrom, specialsFrom, List.filterMap_append, ← List.append_assoc, ← hstep]
      cases hend : (step image i c).ending with
      | «continue» => exact ih (step image i c).inst (step image i c).context
      | yield | terminate | fault => simp

end

/-! ## Who is behind a request -/

theorem LineSpecial.trigger_of_request? {s : LineSpecial} {r : ScriptRequest}
    (h : s.request? = some r) : r.trigger = s.trigger := by
  obtain ⟨kind, _, rfl⟩ := Option.map_eq_some_iff.1 h
  rfl

/-- A request of a script has three arguments, the rest of the five are zero. -/
theorem LineSpecial.args_of_request? {s : LineSpecial} {r : ScriptRequest}
    (h : s.request? = some r) : ∃ a b c, r.args = #v[a, b, c, 0, 0] := by
  obtain ⟨kind, _, rfl⟩ := Option.map_eq_some_iff.1 h
  exact ⟨_, _, _, rfl⟩

theorem Instruction.trigger_special? {i : ScriptInstance} {instruction : Instruction}
    {s : LineSpecial} (h : instruction.special? i = some s) : s.trigger = i.trigger := by
  cases instruction with
  | lineSpecial code argc =>
      simp only [Instruction.special?] at h
      split at h
      · cases h
        rfl
      · cases h
  | lineSpecialDirect code argc args =>
      cases h
      rfl
  | _ => cases h

theorem trigger_specialsFrom {image : Image} {fuel : Nat} {i : ScriptInstance} {c : Context}
    {s : LineSpecial} (hs : s ∈ specialsFrom image fuel i c) : s.trigger = i.trigger := by
  induction fuel generalizing i c with
  | zero => cases hs
  | succ fuel ih =>
      rw [specialsFrom, List.mem_append] at hs
      rcases hs with hs | hs
      · obtain ⟨d, _, hspecial⟩ := Option.bind_eq_some_iff.1 (Option.mem_toList.1 hs)
        exact Instruction.trigger_special? hspecial
      · split at hs
        · exact (ih hs).trans (step_keeps image i c).trigger
        · cases hs

end MapScript
