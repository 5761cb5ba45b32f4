import MapScript.CommandLine.Files
import MapScript.CommandLine.Options
import MapScript.CommandLine.Output
import MapScript.Image.Listing
import MapScript.Json.Printer

/-!
# The dump command

Lists the image in a file.
-/

namespace MapScript.CommandLine.Dump

structure Args where
  path : String
  json : Bool
  noCode : Bool
deriving DecidableEq, Repr

def optionTable : OptionTable := [("json", .flag), ("no-code", .flag)]

def args? (args : List String) : Option Args := do
  let ws ← words? optionTable args
  return {
    path := ← ws.onlyPath?
    json := ws.flags.contains "json"
    noCode := ws.flags.contains "no-code" }

/-- Reads the image of a file. What can be opened need not have contents to view. -/
def readImage (path : String) : Except FileError (List UInt8) → Except Failure Image
  | .error .noView =>
    .error [s!"memory-mapping script image {path}", FileError.noView.message]
  | .error e => .error [s!"opening script image {path}", e.message]
  | .ok bytes =>
    match Image.parse bytes with
    | .ok image => .ok image
    | .error e => .error (s!"parsing script image {path}" :: e.causes)

/-- What the command prints for an image. -/
def present (args : Args) (image : Image) : Output :=
  if args.json then Output.print {} (image.listingJson (!args.noCode)).pretty
  else Output.printAll {} (image.listing args.path (!args.noCode))

/-- Runs the command; `none` when the command line is refused. -/
def run [Monad m] (files : Files m) (words : List String) : m (Option Output) := do
  match args? words with
  | none => return none
  | some args =>
    match readImage args.path (← files.view args.path) with
    | .ok image => return some (present args image)
    | .error causes => return some (Output.fail {} causes)

end MapScript.CommandLine.Dump
