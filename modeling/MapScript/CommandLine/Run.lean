import MapScript.CommandLine.Files
import MapScript.CommandLine.Options
import MapScript.CommandLine.Output
import MapScript.CommandLine.Start
import MapScript.Json.Parser
import MapScript.Json.Printer
import MapScript.Machine.Load
import MapScript.Machine.Snapshot
import MapScript.Machine.Tick
import MapScript.Text.Padded
import MapScript.Text.Utf8

/-!
# The run command

Loads an image, runs it for some ticks against a recording host and tells what happened.
-/

namespace MapScript.CommandLine.Run

structure Args where
  image : String
  map : Int32
  ticks : UInt32
  config : Option String
  seed : Option UInt64
  starts : List String
  eventLog : Option String
  snapshot : Option String
deriving DecidableEq, Repr

def optionTable : OptionTable :=
  [("map", .single), ("ticks", .single), ("config", .single), ("seed", .single),
    ("start", .repeated), ("event-log-json", .single), ("snapshot-json", .single)]

/-- A number of ticks: an integer that turns out to be one, so that minus zero is one too. -/
def ticks? (text : String) : Option UInt32 := do
  let n ← (Text.Decimal.readInt64 text.toList).toOption
  if 0 ≤ n ∧ n < 0x100000000 then some (UInt32.ofNat n.toNat) else none

def args? (args : List String) : Option Args := do
  let ws ← words? optionTable args
  return {
    image := ← ws.onlyPath?
    map := (← ws.value? "map" fun s => (Text.Decimal.readInt32 s.toList).toOption).getD 1
    ticks := (← ws.value? "ticks" ticks?).getD 70
    config := ← ws.value? "config" Words.path?
    seed := ← ws.value? "seed" fun s => (Text.Decimal.readUInt64 s.toList).toOption
    starts := ws.all "start"
    eventLog := ← ws.value? "event-log-json" Words.path?
    snapshot := ← ws.value? "snapshot-json" Words.path? }

/-- Checks the map number and reads the start requests. -/
def readStarts (args : Args) : Except Failure (List StartRequest) :=
  if args.map ≤ 0 then .error ["--map must be a positive map number"]
  else args.starts.mapM fun raw =>
    match readStart raw with
    | .ok start => .ok start
    | .error e => .error e.causes

/-- The text of a file that must be UTF-8. -/
def decodeText (bytes : List UInt8) : Except FileError String :=
  match String.fromUTF8? ⟨bytes.toArray⟩ with
  | some text => .ok text
  | none => .error .notUtf8

/-- Reads the configuration that a text holds. -/
def parseConfig (path : String) (text : String) : Except Failure Config :=
  let failed := ["loading vm config", s!"failed to parse vm config json: {path}"]
  match Json.parse text with
  | .error e => .error (failed ++ [e.message])
  | .ok j =>
    match Config.ofJson? j with
    | some config => .ok config
    | none => .error (failed ++ ["value of the wrong type"])

/-- Reads the configuration in a file. A file that is not there leaves the defaults. -/
def readConfig (path : String) (contents : Except FileError (List UInt8)) :
    Except Failure Config :=
  match contents >>= decodeText with
  | .ok text => parseConfig path text
  | .error e =>
    if e.isMissing then .ok .default
    else .error ["loading vm config", s!"failed to read vm config: {path}", e.message]

/-! ## The simulation -/

/-- A machine and its host, with the events drained so far under their ticks. -/
structure Recording where
  machine : Machine
  host : Host
  events : Array (Nat × HostEvent) := #[]

namespace Recording

/-- Runs one tick, drains its events and advances the clock. -/
def tick (r : Recording) (now : Nat) : Recording :=
  let s := Session.tick { machine := r.machine, host := r.host }
  { machine := s.machine
    host := s.host.drain.advance
    events := r.events ++ s.host.events.map (now, ·) }

/-- Runs ticks one after another, from a given one on. -/
def ticks (r : Recording) (now : Nat) : Nat → Recording
  | 0 => r
  | count + 1 => (r.tick now).ticks (now + 1) count

end Recording

/-- Starts the requested scripts in order; the refused ones are told. -/
def startAll (m : Machine) (out : Output) : List StartRequest → Machine × Output
  | [] => (m, out)
  | start :: rest =>
    let reply := m.start start.script 0 start.args .none
    let out := match reply.answer with
      | .ok _ => out
      | .error e => out.warn s!"!! {e.message}"
    startAll reply.machine out rest

/-- The lines of the messages of a recording. -/
def messageLines (r : Recording) : List String :=
  r.events.toList.filterMap fun (now, event) =>
    event.printed?.map fun text => s!"[{Text.padLeft 5 (toString now)}] {text}"

/-- The last line about a recording. -/
def summary (args : Args) (r : Recording) : String :=
  s!"Ran {args.ticks.toNat} ticks on map {args.map.toInt}: {r.events.size} host events, "
    ++ s!"{r.machine.instances.size} scripts still live"

/-- The events of a recording as a JSON value. -/
def eventLogJson (args : Args) (r : Recording) : Json :=
  .record [("map", .int32 args.map), ("ticks", .uint32 args.ticks),
    ("events", .list (fun (now, event) => .record (("tick", .nat now) :: event.members))
      r.events.toList)]

/-- Loads the image and runs it. -/
def simulate (args : Args) (starts : List StartRequest) (config : Config) (entropy : Generator)
    (bytes : List UInt8) : Except Failure (Recording × Output) :=
  let config := match args.seed with
    | some seed => { config with rngSeed := some seed }
    | none => config
  let load := (Machine.new config entropy).load args.map bytes
  match load.refused with
  | some e => .error (Machine.loadCauses args.map e)
  | none =>
    let (machine, out) := startAll load.report.machine {} starts
    let r := Recording.ticks { machine, host := .new } 0 args.ticks.toNat
    .ok (r, (out.printAll (messageLines r)).print (summary args r))

/-! ## The command -/

/-- Writes a value to a file, where one is asked for, and tells so. -/
def save [Monad m] (files : Files m) (label : String) (path? : Option String) (value : Json)
    (out : Output) : m (Except Output Output) := do
  match path? with
  | none => return .ok out
  | some path =>
    match ← files.write path (Text.Utf8.encode value.pretty) with
    | .ok () => return .ok (out.print s!"Saved {label} to {path}")
    | .error e => return .error (out.fail [s!"writing {label} to {path}", e.message])

/-- Saves the events and then the snapshot of a recording. -/
def saveAll [Monad m] (files : Files m) (args : Args) (r : Recording) (out : Output) :
    m Output := do
  match ← save files "event log" args.eventLog (eventLogJson args r) out with
  | .error out => return out
  | .ok out =>
    match ← save files "vm snapshot" args.snapshot r.machine.snapshot.toJson out with
    | .error out => return out
    | .ok out => return out

/-- The configuration the command line asks for. -/
def config [Monad m] (files : Files m) : Option String → m (Except Failure Config)
  | none => return .ok .default
  | some path => return readConfig path (← files.read path)

/-- Runs the command after its command line has been read. -/
def execute [Monad m] (files : Files m) (entropy : Generator) (args : Args) : m Output := do
  match readStarts args with
  | .error causes => return Output.fail {} causes
  | .ok starts =>
    match ← config files args.config with
    | .error causes => return Output.fail {} causes
    | .ok config =>
      match ← files.read args.image with
      | .error e => return Output.fail {} [s!"reading script image {args.image}", e.message]
      | .ok bytes =>
        match simulate args starts config entropy bytes with
        | .error causes => return Output.fail {} causes
        | .ok (r, out) => saveAll files args r out

/-- Runs the command; `none` when the command line is refused. The random numbers come from
`entropy` where nothing seeds them. -/
def run [Monad m] (files : Files m) (entropy : Generator) (words : List String) :
    m (Option Output) := do
  match args? words with
  | none => return none
  | some args => return some (← execute files entropy args)

end MapScript.CommandLine.Run
