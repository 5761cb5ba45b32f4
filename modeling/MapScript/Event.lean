import MapScript.Action
import MapScript.Instruction.Basic
import MapScript.Json.Storage

/-!
# Host events

What scripts do to the game around them.
-/

namespace MapScript

/-- Where a sound comes from. -/
inductive SoundOrigin where
  /-- Heard everywhere alike. -/
  | ambient
  /-- The front sector of a line. -/
  | lineSector (line : UInt32)
  /-- Every thing with this identifier. -/
  | things (tid : Int32)
deriving DecidableEq, Repr

namespace SoundOrigin

def toJson : SoundOrigin → Json
  | ambient => .record [("kind", .text "ambient")]
  | lineSector line => .record [("kind", .text "line_sector"), ("id", .uint32 line)]
  | things tid => .record [("kind", .text "things"), ("id", .int32 tid)]

def ofJson? (source : Json.Source) (j : Json) : Option SoundOrigin := do
  match ← j.adjacent? source ["ambient", "line_sector", "things"] "kind" "id" with
  | ("ambient", none) | ("ambient", some .null) => return ambient
  | ("line_sector", some v) => return lineSector (← v.uint32?)
  | ("things", some v) => return things (← v.int32?)
  | _ => none

end SoundOrigin

inductive PrintStyle where
  | normal | bold
deriving DecidableEq, Repr

namespace PrintStyle

def key : PrintStyle → String
  | normal => "normal"
  | bold => "bold"

def ofJson? (source : Json.Source) : Json → Option PrintStyle :=
  Json.oneOf? source [("normal", normal), ("bold", bold)]

end PrintStyle

namespace Surface

def key : Surface → String
  | floor => "floor"
  | ceiling => "ceiling"

def ofJson? (source : Json.Source) : Json → Option Surface :=
  Json.oneOf? source [("floor", floor), ("ceiling", ceiling)]

end Surface

inductive HostEvent where
  | special (code : Int32) (args : SpecialArgs) (activator line : Option UInt32)
  | changeFlat (tag : Int32) (surface : Surface) (flat : String)
  | lineBlocking (lineTag : Int32) (blocking : Bool)
  | lineSpecial (lineTag code : Int32) (args : SpecialArgs)
  | lineTexture (lineTag side position : Int32) (texture : String)
  | clearLineSpecial (line : UInt32)
  | sound (name : String) (volume : Int32) (origin : SoundOrigin)
  | soundSequence (sequence : String) (origin : SoundOrigin)
  /-- A message for one actor, or for every player. -/
  | print (text : String) (recipient : Option UInt32) (style : PrintStyle)
deriving DecidableEq, Repr

namespace HostEvent

/-- The text of a message. -/
def printed? : HostEvent → Option String
  | print text _ _ => some text
  | _ => none

/-- The kind and fields of an event as members. -/
def members : HostEvent → List (String × Json)
  | special code args activator line =>
    [("kind", .text "special"), ("special", .int32 code), ("args", args.toJson),
      ("activator", .nullable .uint32 activator), ("line", .nullable .uint32 line)]
  | changeFlat tag surface flat =>
    [("kind", .text "change_flat"), ("tag", .int32 tag), ("surface", .text surface.key),
      ("flat", .text flat)]
  | lineBlocking lineTag blocking =>
    [("kind", .text "line_blocking"), ("line_tag", .int32 lineTag), ("blocking", .bool blocking)]
  | lineSpecial lineTag code args =>
    [("kind", .text "line_special"), ("line_tag", .int32 lineTag), ("special", .int32 code),
      ("args", args.toJson)]
  | lineTexture lineTag side position texture =>
    [("kind", .text "line_texture"), ("line_tag", .int32 lineTag), ("side", .int32 side),
      ("position", .int32 position), ("texture", .text texture)]
  | clearLineSpecial line => [("kind", .text "clear_line_special"), ("line", .uint32 line)]
  | sound name volume origin =>
    [("kind", .text "sound"), ("sound", .text name), ("volume", .int32 volume),
      ("origin", origin.toJson)]
  | soundSequence sequence origin =>
    [("kind", .text "sound_sequence"), ("sequence", .text sequence), ("origin", origin.toJson)]
  | print text recipient style =>
    [("kind", .text "print"), ("text", .text text), ("recipient", .nullable .uint32 recipient),
      ("style", .text style.key)]

def toJson (e : HostEvent) : Json := .record e.members

/-- An event is stored until its kind is known, and then read from the store. -/
def ofJson? (j : Json) : Option HostEvent := do
  let (kind, body) ← (← j.stored?).internal? "kind"
  match kind with
  | "special" =>
    let ms ← body.fields? ["special", "args", "activator", "line"]
    return special (← Json.required? "special" Json.int32? ms)
      (← Json.required? "args" SpecialArgs.ofJson? ms)
      (← Json.optional? "activator" Json.uint32? ms) (← Json.optional? "line" Json.uint32? ms)
  | "change_flat" =>
    let ms ← body.fields? ["tag", "surface", "flat"]
    return changeFlat (← Json.required? "tag" Json.int32? ms)
      (← Json.required? "surface" (Surface.ofJson? .store) ms)
      (← Json.required? "flat" Json.text? ms)
  | "line_blocking" =>
    let ms ← body.fields? ["line_tag", "blocking"]
    return lineBlocking (← Json.required? "line_tag" Json.int32? ms)
      (← Json.required? "blocking" Json.bool? ms)
  | "line_special" =>
    let ms ← body.fields? ["line_tag", "special", "args"]
    return lineSpecial (← Json.required? "line_tag" Json.int32? ms)
      (← Json.required? "special" Json.int32? ms)
      (← Json.required? "args" SpecialArgs.ofJson? ms)
  | "line_texture" =>
    let ms ← body.fields? ["line_tag", "side", "position", "texture"]
    return lineTexture (← Json.required? "line_tag" Json.int32? ms)
      (← Json.required? "side" Json.int32? ms) (← Json.required? "position" Json.int32? ms)
      (← Json.required? "texture" Json.text? ms)
  | "clear_line_special" =>
    let ms ← body.fields? ["line"]
    return clearLineSpecial (← Json.required? "line" Json.uint32? ms)
  | "sound" =>
    let ms ← body.fields? ["sound", "volume", "origin"]
    return sound (← Json.required? "sound" Json.text? ms) (← Json.required? "volume" Json.int32? ms)
      (← Json.required? "origin" (SoundOrigin.ofJson? .store) ms)
  | "sound_sequence" =>
    let ms ← body.fields? ["sequence", "origin"]
    return soundSequence (← Json.required? "sequence" Json.text? ms)
      (← Json.required? "origin" (SoundOrigin.ofJson? .store) ms)
  | "print" =>
    let ms ← body.fields? ["text", "recipient", "style"]
    return print (← Json.required? "text" Json.text? ms)
      (← Json.optional? "recipient" Json.uint32? ms)
      (← Json.required? "style" (PrintStyle.ofJson? .store) ms)
  | _ => none

end HostEvent

end MapScript
