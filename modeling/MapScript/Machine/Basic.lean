import MapScript.Config
import MapScript.DeferredQueue
import MapScript.InstanceTable
import MapScript.Interpreter.Step

/-!
# Machines

A machine holds the loaded image, the variables, the live instances and the actions that wait for
other maps.
-/

namespace MapScript

structure Machine where
  config : Config
  image : Image
  map : Int32
  worldVars : WorldVars
  mapVars : MapVars
  instances : InstanceTable
  deferred : DeferredQueue
  print : PrintBuffer
  rng : Generator
deriving DecidableEq, Repr

namespace Machine

/-- A machine on which no map is loaded. Where the configuration names no seed, `entropy` is its
generator. -/
def new (config : Config) (entropy : Generator) : Machine where
  config := config
  image := .empty
  map := 0
  worldVars := .zero
  mapVars := .zero
  instances := .empty
  deferred := .empty
  print := .new config.printBufferLimit
  rng := config.rngSeed.elim entropy .ofSeed

/-- Starts the game anew: variables, instances and waiting actions are dropped. -/
def newGame (m : Machine) : Machine :=
  { m with
    worldVars := .zero
    mapVars := .zero
    instances := m.instances.clear
    deferred := .empty }

/-- Sets running every instance that waits for the given thing. -/
def wake (m : Machine) (awaited : Awaited) : Machine :=
  { m with instances := m.instances.wake awaited }

/-- The sectors with a tag have come to rest. -/
def tagFinished (m : Machine) (tag : Int32) : Machine := m.wake (.tag tag)

/-- A polyobject has come to rest. -/
def polyFinished (m : Machine) (poly : Int32) : Machine := m.wake (.poly poly)

def status (m : Machine) (number : Int32) : ScriptStatus := m.instances.statusOf number

end Machine

end MapScript
