import MapScript.Interpreter.Step

/-!
# What instructions see of a host

Instructions record events on a host and ask it for counts, players, game, skill and time.  A change
of the host that none of this notices goes through every step and slice untouched.
-/

namespace MapScript

/-- The change commutes with recording and leaves every answer that an instruction can ask for. -/
structure Host.Unnoticed (f : Host → Host) : Prop where
  record : ∀ h e, f (h.record e) = (f h).record e
  thingCounts : ∀ h, (f h).thingCounts = h.thingCounts
  players : ∀ h, (f h).players = h.players
  gameType : ∀ h, (f h).gameType = h.gameType
  skill : ∀ h, (f h).skill = h.skill
  levelTime : ∀ h, (f h).levelTime = h.levelTime

theorem Host.Unnoticed.thingCount {f : Host → Host} (hf : Unnoticed f) (h : Host)
    (thingType tid : Int32) : (f h).thingCount thingType tid = h.thingCount thingType tid := by
  rw [Host.thingCount, Host.thingCount, hf.thingCounts]

/-- The context with another host. -/
def Context.onHost (f : Host → Host) (c : Context) : Context := { c with host := f c.host }

def Stepped.onHost (f : Host → Host) (r : Stepped) : Stepped :=
  { r with context := r.context.onHost f }

theorem pushResult_onHost (f : Host → Host) (next : Nat) (value : Int32) (i : ScriptInstance)
    (c : Context) :
    pushResult next value i (c.onHost f) = (pushResult next value i c).onHost f := by
  unfold pushResult
  split <;> rfl

variable {f : Host → Host} (hf : Host.Unnoticed f)
include hf

theorem Instruction.effect_onHost (instruction : Instruction) (image : Image) (i : ScriptInstance)
    (c : Context) : instruction.effect image i (c.onHost f) = instruction.effect image i c := by
  cases instruction with
  | thingCount | thingCountDirect => simp only [effect, Context.onHost, hf.thingCount]
  | playerCount => simp only [effect, Context.onHost, hf.players]
  | gameType => simp only [effect, Context.onHost, hf.gameType]
  | gameSkill => simp only [effect, Context.onHost, hf.skill]
  | timer => simp only [effect, Context.onHost, hf.levelTime]
  | _ => rfl

theorem Effect.perform_onHost (effect : Effect) (next : Nat) (i : ScriptInstance) (c : Context) :
    effect.perform next i (c.onHost f) = (effect.perform next i c).onHost f := by
  cases effect with
  | push value => exact pushResult_onHost f next value i c
  | draw min max =>
      have hrng : (c.onHost f).rng = c.rng := rfl
      simp only [Effect.perform, hrng]
      exact pushResult_onHost f next _ i { c with rng := (c.rng.between min max).2 }
  | store scope index value => cases scope <;> rfl
  | emit event => simp only [Effect.perform, Stepped.onHost, Context.onHost, hf.record]
  | _ => rfl

theorem step_onHost (image : Image) (i : ScriptInstance) (c : Context) :
    step image i (c.onHost f) = (step image i c).onHost f := by
  unfold step
  split
  · rfl
  · rw [Instruction.effect_onHost hf]
    split
    · exact Effect.perform_onHost hf _ _ _ c
    · rfl

theorem runSlice_onHost (image : Image) (limit : UInt32) (i : ScriptInstance) (c : Context) :
    runSlice image limit i (c.onHost f) = (runSlice image limit i c).onHost f := by
  unfold runSlice
  generalize limit.toNat = fuel
  induction fuel generalizing i c with
  | zero => rfl
  | succ fuel ih =>
      simp only [sliceFrom, step_onHost hf]
      cases hend : (step image i c).ending with
      | «continue» =>
          simp only [Stepped.onHost, hend]
          exact ih (step image i c).inst (step image i c).context
      | _ => simp only [Stepped.onHost, hend]

end MapScript
