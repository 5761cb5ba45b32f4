import MapScript.Json.Reading

/-!
# Configuration

The limits and delays of a machine.
-/

namespace MapScript

structure Config where
  /-- Instructions an instance may run in one slice. -/
  runawayLimit : UInt32 := 500000
  /-- Turns an open script sits out before its first slice. -/
  openScriptDelay : UInt32 := 35
  /-- Turns a deferred start sits out after its map is loaded. -/
  deferredStartDelay : UInt32 := 35
  /-- The most bytes of a message. -/
  printBufferLimit : Nat := 256
  /-- The seed of the random numbers; without one they are seeded from outside. -/
  rngSeed : Option UInt64 := none
deriving DecidableEq, Repr

namespace Config

def default : Config := {}

def toJson (c : Config) : Json :=
  .record [("runaway_limit", .uint32 c.runawayLimit),
    ("open_script_delay", .uint32 c.openScriptDelay),
    ("deferred_start_delay", .uint32 c.deferredStartDelay),
    ("print_buffer_limit", .nat c.printBufferLimit),
    ("rng_seed", .nullable .uint64 c.rngSeed)]

/-- Every field that is left out takes its default. -/
def ofJson? (j : Json) : Option Config := do
  let ms ← j.optionalFields? ["runaway_limit", "open_script_delay", "deferred_start_delay",
    "print_buffer_limit", "rng_seed"]
  return {
    runawayLimit := ← Json.defaulting? "runaway_limit" Json.uint32? default.runawayLimit ms
    openScriptDelay :=
      ← Json.defaulting? "open_script_delay" Json.uint32? default.openScriptDelay ms
    deferredStartDelay :=
      ← Json.defaulting? "deferred_start_delay" Json.uint32? default.deferredStartDelay ms
    printBufferLimit :=
      ← Json.defaulting? "print_buffer_limit" Json.size? default.printBufferLimit ms
    rngSeed := ← Json.defaulting? "rng_seed" (·.nullable? Json.uint64?) default.rngSeed ms }

end Config

end MapScript
