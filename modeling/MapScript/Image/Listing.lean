import MapScript.Image.Parser
import MapScript.Instruction.Printer
import MapScript.Text.Padded
import MapScript.Text.Quoted

/-!
# Listings

An image written for a reader: its scripts, its strings and, where asked for, its instructions.
-/

namespace MapScript.Image

open Text (padLeft padRight)

/-- The line of a script. -/
def scriptLine (info : ScriptInfo) : String :=
  let number := padLeft 4 (toString info.number.toInt)
  let entry := padRight 6 (toString info.entry)
  let mark := if info.isOpen then "OPEN" else ""
  s!"script {number}  args {info.argCount}  entry @{entry} {mark}"

/-- The line of a string. -/
def stringLine (index : Nat) (text : String) : String :=
  s!"str#{padRight 4 (toString index)} {Text.Quoted.quote text}"

/-- The lines of an instruction; a script that starts there is named first. -/
def codeLines (image : Image) (pc : Nat) (d : Decoded) : List String :=
  let label := match image.scripts.find? (·.entry = pc) with
    | some info => [s!"script {info.number.toInt}:"]
    | none => []
  label ++ [s!"  @{padRight 6 (toString pc)} {d.instruction.listing}"]

/-- The lines of the whole listing of the image in a file. -/
def listing (image : Image) (path : String) (withCode : Bool) : List String :=
  if image.isEmpty then [s!"{path} declares no scripts"]
  else
    let scripts := image.scripts.length
    let strings := image.strings.size
    s!"{scripts} scripts, {strings} strings in {path} ({image.byteSize} bytes)" ::
      image.scripts.map scriptLine
      ++ image.strings.toList.zipIdx.map (fun (text, index) => stringLine index text)
      ++ if withCode then
          "" :: image.program.toList.flatMap fun (pc, d) => image.codeLines pc d
        else []

/-- The listing as a JSON value. -/
def listingJson (image : Image) (withCode : Bool) : Json :=
  let code := if withCode then image.program.toList else []
  .record [("bytes", .nat image.byteSize), ("scripts", .list ScriptInfo.toJson image.scripts),
    ("strings", .list .text image.strings.toList),
    ("code", .list (fun (pc, d) => .arr [.nat pc, d.toJson]) code)]

end MapScript.Image
