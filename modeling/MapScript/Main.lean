import MapScript.CommandLine.Dump
import MapScript.CommandLine.Run

/-!
# The program

Joins the commands to the files and streams of the system.
-/

namespace MapScript.CommandLine

/-- The number of an error of the system, which some calls give with its sign turned. -/
def errorNumber (code : UInt32) : Nat := (min code (-code)).toNat

/-- The cause behind an error of the system. -/
def FileError.ofSystemError : IO.Error → FileError
  | .noFileOrDirectory .. => .notFound
  | e@(.inappropriateType _ code _) =>
    match errorNumber code with
    | 20 => .notDirectory
    | 21 => .isDirectory
    | _ => .other (toString e)
  | e@(.invalidArgument _ code _) =>
    if errorNumber code = 36 then .nameTooLong else .other (toString e)
  | e => .other (toString e)

/-- The contents of a file of the system. -/
def readSystemFile (path : String) : IO (Except FileError (List UInt8)) := do
  try
    return .ok (← IO.FS.readBinFile path).toList
  catch e => return .error (.ofSystemError e)

/-- The files of the system. A directory can be opened but not viewed. -/
def systemFiles : Files IO where
  read := readSystemFile
  view path := do
    match ← readSystemFile path with
    | .error .isDirectory => return .error .noView
    | contents => return contents
  write path bytes := do
    try
      IO.FS.writeBinFile path ⟨bytes.toArray⟩
      return .ok ()
    catch e => return .error (.ofSystemError e)

def usage : String :=
  "usage: dump IMAGE [--json] [--no-code]\n" ++
  "       run IMAGE [--map N] [--ticks N] [--config FILE] [--seed N]\n" ++
  "           [--start SCRIPT[:ARGS]]... [--event-log-json FILE] [--snapshot-json FILE]\n"

/-- A generator from the system. One of zeros would never leave them, and is seeded instead. -/
def systemEntropy : IO Generator := do
  let bytes ← IO.getRandomBytes 32
  let word k := (bytes.extract (8 * k) (8 * k + 8)).toUInt64LE!
  let g : Generator := ⟨word 0, word 1, word 2, word 3⟩
  return if g = ⟨0, 0, 0, 0⟩ then 0 else g

/-- Runs the command named by the first word. -/
def command : List String → IO (Option Output)
  | "dump" :: words => Dump.run systemFiles words
  | "run" :: words => do Run.run systemFiles (← systemEntropy) words
  | _ => return none

end MapScript.CommandLine

def main (words : List String) : IO UInt32 := do
  match ← MapScript.CommandLine.command words with
  | none =>
    IO.eprint MapScript.CommandLine.usage
    return 2
  | some out =>
    IO.print out.stdout
    IO.eprint out.stderr
    return UInt32.ofNat out.code
