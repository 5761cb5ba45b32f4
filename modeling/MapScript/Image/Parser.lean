import MapScript.Word
import MapScript.Text.Utf8
import MapScript.Image.Exploration

/-!
# Reading an image

An image is a signature, the offset of its info table, code and strings, and the info table: the
script records and the offsets of the strings. A lump too short for a header declares nothing.
-/

namespace MapScript

/-- The two tables of an image. -/
inductive ImageTable where
  | script | string
deriving DecidableEq, Repr

namespace ImageTable

def name : ImageTable → String
  | script => "script"
  | string => "string"

end ImageTable

/-- Why an image is refused. -/
inductive ImageError where
  | badSignature
  | badInfoOffset (offset size : Nat)
  | noCount (table : ImageTable)
  | negativeCount (table : ImageTable) (count : Int32)
  | tableTooLong (table : ImageTable) (count : Nat)
  | badEntry (record : Nat) (cause : OffsetError)
  | badArgCount (record : Nat) (count : Int32)
  | repeatedScript (number : Int32)
  | badStringOffset (index offset size : Nat)
  | badCode (cause : CodeError)
deriving DecidableEq, Repr

namespace ImageError

/-- The causes of an error, outermost first. -/
def causes : ImageError → List String
  | badSignature => ["script image missing ACS signature"]
  | badInfoOffset offset size => [s!"info table offset {offset} outside image of {size} bytes"]
  | noCount table => [s!"reading {table.name} count", "failed to fill whole buffer"]
  | negativeCount table count => [s!"negative {table.name} count {count.toInt}"]
  | tableTooLong table count =>
    [s!"{table.name} table with {count} entries runs past end of image"]
  | badEntry record cause => [s!"entry point of script record {record}", cause.message]
  | badArgCount record count => [s!"script record {record} declares {count.toInt} arguments"]
  | repeatedScript number => [s!"script {number.toInt} declared more than once"]
  | badStringOffset index offset size =>
    [s!"reading string {index}", s!"string offset {offset} beyond image length {size}"]
  | badCode cause => cause.causes

/-- The causes of an error in one line. -/
def message (e : ImageError) : String := ": ".intercalate e.causes

end ImageError

namespace Image

/-- The first four bytes of every image. -/
def signature : List UInt8 := [0x41, 0x43, 0x53, 0x00]

/-- Bytes in the signature and the info table offset. -/
def headerSize : Nat := headerCells * cellSize

/-- Declared script numbers from here on belong to open scripts and count from zero again. -/
def openScriptBase : Int32 := 1000

/-- The most arguments a script can declare. -/
def maxArgCount : Nat := VarScope.capacity .script

/-- The count at the head of a table. -/
def readCount (table : ImageTable) : List UInt32 → Except ImageError (Nat × List UInt32)
  | [] => .error (.noCount table)
  | w :: rest =>
    if w.toInt32 < 0 then .error (.negativeCount table w.toInt32)
    else .ok (w.toNat, rest)

/-- The number, entry offset and argument count of each script record. -/
def records : List UInt32 → List (Int32 × Int32 × Int32)
  | number :: offset :: argc :: rest =>
    (number.toInt32, offset.toInt32, argc.toInt32) :: records rest
  | _ => []

/-- Checks the script record at a place of the table. -/
def readScript (codeEnd index : Nat) :
    Int32 × Int32 × Int32 → Except ImageError ScriptInfo
  | (number, offset, argc) =>
    match codeCell codeEnd offset with
    | .error cause => .error (.badEntry index cause)
    | .ok entry =>
      if 0 ≤ argc ∧ argc.toInt.toNat ≤ maxArgCount then
        .ok { number := if openScriptBase ≤ number then number - openScriptBase else number
              entry
              argCount := argc.toInt.toNat
              isOpen := openScriptBase ≤ number }
      else .error (.badArgCount index argc)

/-- Checks the script records in order, each number for the first time. -/
def readScripts (codeEnd index : Nat) (before : List ScriptInfo) :
    List (Int32 × Int32 × Int32) → Except ImageError (List ScriptInfo)
  | [] => .ok []
  | record :: rest => do
    let info ← readScript codeEnd index record
    if before.any (·.number = info.number) then .error (.repeatedScript info.number)
    else return info :: (← readScripts codeEnd (index + 1) (info :: before) rest)

/-- The text that starts at an offset and ends before a zero byte or with the image. -/
def textAt (bytes : List UInt8) (offset : Nat) : String :=
  Text.Utf8.decodeLossy ((bytes.drop offset).takeWhile (· ≠ 0))

/-- The texts at the given offsets. -/
def readStrings (bytes : List UInt8) (index : Nat) : List UInt32 → Except ImageError (List String)
  | [] => .ok []
  | offset :: rest =>
    if offset.toNat < bytes.length then do
      return textAt bytes offset.toNat :: (← readStrings bytes (index + 1) rest)
    else .error (.badStringOffset index offset.toNat bytes.length)

/-- The string table. It may be missing where no script is declared. -/
def readStringTable (bytes : List UInt8) (scriptCount : Nat) (table : List UInt32) :
    Except ImageError (List String) :=
  if scriptCount = 0 ∧ table = [] then .ok []
  else do
    let (count, offsets) ← readCount .string table
    if count ≤ offsets.length then readStrings bytes 0 (offsets.take count)
    else .error (.tableTooLong .string count)

/-- The offset of the info table. -/
def infoOffset (bytes : List UInt8) : Nat :=
  match Word.split bytes with
  | _ :: offset :: _ => offset.toNat
  | _ => 0

/-- The cells before the info table. -/
def codeArea (bytes : List UInt8) : Array Int32 :=
  ((Word.split bytes).take (infoOffset bytes / cellSize)).toArray.map UInt32.toInt32

/-- Reads an image from its bytes. -/
def parse (bytes : List UInt8) : Except ImageError Image :=
  if bytes.length < headerSize then .ok .empty
  else if bytes.take 4 ≠ signature then .error .badSignature
  else if headerSize ≤ infoOffset bytes ∧ infoOffset bytes < bytes.length then do
    let code := codeArea bytes
    let (scriptCount, table) ← readCount .script (Word.split (bytes.drop (infoOffset bytes)))
    if 3 * scriptCount ≤ table.length then
      let scripts ← readScripts code.size 0 [] (records (table.take (3 * scriptCount)))
      let strings ← readStringTable bytes scriptCount (table.drop (3 * scriptCount))
      match decodeReachable code (scripts.map (·.entry)) with
      | .error cause => .error (.badCode cause)
      | .ok program =>
        return { scripts, strings := strings.toArray, program, byteSize := bytes.length }
    else .error (.tableTooLong .script scriptCount)
  else .error (.badInfoOffset (infoOffset bytes) bytes.length)

end Image

end MapScript
