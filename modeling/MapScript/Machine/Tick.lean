import MapScript.Machine.Request

/-!
# Ticks

In a tick every instance that was live at its start has one turn, in handle order. An instance that
may run runs a slice, and then the requests of that slice are served, so that a script started in a
tick first runs in the next one.
-/

namespace MapScript

/-- A machine at work on a host. -/
structure Session where
  machine : Machine
  host : Host
  journal : Journal := #[]

/-- A session in which an instance has had its part of a turn, and the requests it leaves to be
served. -/
structure Played where
  session : Session
  requests : List ScriptRequest := []

namespace Session

def note (s : Session) (n : Notice) : Session := { s with journal := s.journal.push n }

/-- Removes an instance and wakes those that wait for its script. -/
def finish (s : Session) (h : UInt32) : Session :=
  match s.machine.instances.get? h with
  | none => s
  | some i =>
    let instances := (s.machine.instances.remove h).wake (.script i.number)
    { s with machine := { s.machine with instances } }.note (.finished s.machine.map i.number)

/-- Whether the thing an instance waits for is still to come. -/
def pending (s : Session) : Awaited → Bool
  | .tag tag => s.host.tagBusy tag
  | .poly poly => s.host.polyBusy poly
  | .script number => s.machine.instances.contains number

/-- Serves one request of a slice. -/
def serve (s : Session) (r : ScriptRequest) : Session :=
  let reply := s.machine.serve r
  let notice := match reply.answer with
    | .ok outcome => .requestServed r.script r.kind outcome
    | .error cause => .requestIgnored r.kind cause
  { s with machine := reply.machine, journal := (s.journal ++ reply.journal).push notice }

/-- What an instance's slice runs in. -/
def context (s : Session) : Context where
  world := s.machine.worldVars
  map := s.machine.mapVars
  print := s.machine.print
  rng := s.machine.rng
  host := s.host

/-- Takes over what a slice left behind, its requests apart. -/
def absorb (s : Session) (h : UInt32) (r : Stepped) : Session where
  machine := { s.machine with
    worldVars := r.context.world
    mapVars := r.context.map
    print := r.context.print
    rng := r.context.rng
    instances := s.machine.instances.modify h fun _ => r.inst }
  host := r.context.host
  journal := s.journal ++ r.context.journal

/-- Runs a slice of an instance and ends the instance where the slice did. -/
def slice (s : Session) (h : UInt32) (i : ScriptInstance) : Played :=
  let r := runSlice s.machine.image s.machine.config.runawayLimit i s.context
  let after := s.absorb h r
  let settled := match r.ending with
    | .continue | .yield => after
    | .terminate => after.finish h
    | .fault f => (after.note (.faulted s.machine.map r.inst.number r.inst.pc f)).finish h
  { session := settled, requests := r.context.requests.toList }

/-- The part of an instance that is running, or whose wait is over. -/
def run (s : Session) (h : UInt32) (i : ScriptInstance) : Played :=
  if i.delay = 0 then s.slice h { i with state := .running }
  else
    let instances := s.machine.instances.modify h fun i =>
      { i with state := .running, delay := i.delay - 1 }
    { session := { s with machine := { s.machine with instances } } }

/-- The part that the instance under a handle has in its turn. -/
def play (s : Session) (h : UInt32) : Played :=
  match s.machine.instances.get? h with
  | none => { session := s }
  | some i =>
    match i.state with
    | .terminating => { session := s.finish h }
    | .suspended => { session := s }
    | .running => s.run h i
    | .waiting on => if s.pending on then { session := s } else s.run h i

/-- The turn of the instance under a handle: its part, and then its requests are served. -/
def turn (s : Session) (h : UInt32) : Session :=
  let played := s.play h
  played.requests.foldl serve played.session

/-- One turn for every instance that is live now. -/
def tick (s : Session) : Session := s.machine.instances.handles.foldl turn s

end Session

end MapScript
