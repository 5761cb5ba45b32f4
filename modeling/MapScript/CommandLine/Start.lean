import MapScript.SpecialArgs
import MapScript.Text.Blank
import MapScript.Text.Decimal

/-!
# Start requests

The value of a `--start` option: a script number, and after a colon its arguments with commas
between them. White space around numbers is ignored.
-/

namespace MapScript.CommandLine

structure StartRequest where
  script : Int32
  args : SpecialArgs
deriving DecidableEq, Repr

/-- Why a text is no start request. -/
inductive StartError where
  | badScript (raw : String) (cause : Text.Decimal.Cause)
  | badArgument (raw : String) (cause : Text.Decimal.Cause)
  | tooManyArguments (raw : String) (count : Nat)
deriving DecidableEq, Repr

namespace StartError

/-- The causes of an error, outermost first. -/
def causes : StartError → List String
  | badScript raw cause => [s!"invalid script number in --start {raw}", cause.message]
  | badArgument raw cause => [s!"invalid argument list in --start {raw}", cause.message]
  | tooManyArguments raw count =>
    [s!"--start {raw} passes {count} arguments; at most {specialArgCount} are allowed"]

end StartError

/-- The pieces of a text between the places where a character stands. -/
def splitAt (sep : Char) : List Char → List (List Char)
  | [] => [[]]
  | c :: cs =>
    if c = sep then [] :: splitAt sep cs
    else match splitAt sep cs with
      | [] => [[c]]
      | piece :: pieces => (c :: piece) :: pieces

/-- An integer with white space around it. -/
def trimmedInt (cs : List Char) : Except Text.Decimal.Cause Int32 :=
  Text.Decimal.readInt32 (Text.trim cs)

/-- The arguments in the part after the colon. A blank part holds none. -/
def readArgs (raw : String) (cs : List Char) : Except StartError SpecialArgs :=
  if Text.trim cs = [] then .ok .zero
  else
    match (splitAt ',' cs).mapM trimmedInt with
    | .error cause => .error (.badArgument raw cause)
    | .ok values =>
      if values.length ≤ specialArgCount then .ok (.ofList values)
      else .error (.tooManyArguments raw values.length)

/-- Reads a start request. -/
def readStart (raw : String) : Except StartError StartRequest :=
  let before := raw.toList.takeWhile (· ≠ ':')
  match trimmedInt before with
  | .error cause => .error (.badScript raw cause)
  | .ok script =>
    match raw.toList.dropWhile (· ≠ ':') with
    | [] => .ok ⟨script, .zero⟩
    | _ :: rest => do return ⟨script, ← readArgs raw rest⟩

end MapScript.CommandLine
