import MapScript.Interpreter.Effect

/-!
# Steps and slices

One instruction of an instance, and the run of instructions it may make in one turn.
-/

namespace MapScript

/-- How a step or a slice ended. -/
inductive Ending where
  | continue
  /-- The instance gives up the rest of its turn. -/
  | yield
  | terminate
  | fault (fault : Fault)
deriving DecidableEq, Repr

/-- An ending with the instance and its surroundings after it. -/
structure Stepped where
  ending : Ending
  inst : ScriptInstance
  context : Context
deriving DecidableEq, Repr

/-- Pushes a result and goes on. -/
def pushResult (next : Nat) (value : Int32) (i : ScriptInstance) (c : Context) : Stepped :=
  match i.stack.push value with
  | .ok stack => ⟨.continue, { i with stack, pc := next }, c⟩
  | .error f => ⟨.fault f, i, c⟩

namespace Effect

/-- Does what an instruction says. Execution goes on at `next` unless the effect is a jump. -/
def perform (next : Nat) (i : ScriptInstance) (c : Context) : Effect → Stepped
  | nothing => ⟨.continue, { i with pc := next }, c⟩
  | push value => pushResult next value i c
  | draw min max =>
    let (value, rng) := c.rng.between min max
    pushResult next value i { c with rng }
  | store .script index value =>
    ⟨.continue, { i with locals := i.locals.set index value, pc := next }, c⟩
  | store .map index value =>
    ⟨.continue, { i with pc := next }, { c with map := c.map.set index value }⟩
  | store .world index value =>
    ⟨.continue, { i with pc := next }, { c with world := c.world.set index value }⟩
  | jump target => ⟨.continue, { i with pc := target }, c⟩
  | terminate => ⟨.terminate, { i with pc := next }, c⟩
  | sleep ticks => ⟨.yield, { i with delay := ticks, pc := next }, c⟩
  | await state => ⟨.yield, { i with state, pc := next }, c⟩
  | emit event => ⟨.continue, { i with pc := next }, { c with host := c.host.record event }⟩
  | request r => ⟨.continue, { i with pc := next }, { c with requests := c.requests.push r }⟩
  | clearPrint => ⟨.continue, { i with pc := next }, { c with print := c.print.clear }⟩
  | print text => ⟨.continue, { i with pc := next }, c.appendPrint text⟩

end Effect

/-- Runs the instruction an instance stands at. -/
def step (image : Image) (i : ScriptInstance) (c : Context) : Stepped :=
  match image.program.fetch i.pc with
  | none => ⟨.fault (.badInstructionPointer i.pc), i, c⟩
  | some d =>
    match d.instruction.effect image i c i.stack with
    | .ok effect stack => effect.perform d.next { i with stack } c
    | .error f stack => ⟨.fault f, { i with stack }, c⟩

/-- Runs at most `fuel` instructions, up to the first that does not go on. -/
def sliceFrom (image : Image) (limit : UInt32) : Nat → ScriptInstance → Context → Stepped
  | 0, i, c => ⟨.fault (.runaway limit), i, c⟩
  | fuel + 1, i, c =>
    let s := step image i c
    match s.ending with
    | .continue => sliceFrom image limit fuel s.inst s.context
    | _ => s

/-- Runs an instance until it no longer goes on. More than `limit` instructions are a fault. -/
def runSlice (image : Image) (limit : UInt32) (i : ScriptInstance) (c : Context) : Stepped :=
  sliceFrom image limit limit.toNat i c

end MapScript
