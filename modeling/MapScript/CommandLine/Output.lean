/-!
# Output

What a command leaves on its two streams, and how a failure is told.
-/

namespace MapScript.CommandLine

/-- The exit code and the streams of a command. -/
structure Output where
  code : Nat := 0
  stdout : String := ""
  stderr : String := ""
deriving DecidableEq, Repr

/-- The causes of a failure, outermost first. -/
abbrev Failure := List String

/-- A failure with its causes below it; several causes are numbered. -/
def failureText : Failure → String
  | [] => ""
  | [outer] => s!"Error: {outer}\n"
  | [outer, cause] => s!"Error: {outer}\n\nCaused by:\n    {cause}\n"
  | outer :: causes =>
    s!"Error: {outer}\n\nCaused by:\n"
      ++ String.join (causes.zipIdx.map fun (cause, i) => s!"    {i}: {cause}\n")

namespace Output

/-- Adds a line to the output. -/
def print (o : Output) (line : String) : Output := { o with stdout := o.stdout ++ line ++ "\n" }

/-- Adds lines to the output. -/
def printAll (o : Output) (lines : List String) : Output :=
  { o with stdout := o.stdout ++ String.join (lines.map (· ++ "\n")) }

/-- Adds a line to the error stream. -/
def warn (o : Output) (line : String) : Output := { o with stderr := o.stderr ++ line ++ "\n" }

/-- Ends with a failure. What was written before stays. -/
def fail (o : Output) (causes : Failure) : Output :=
  { o with code := 1, stderr := o.stderr ++ failureText causes }

end Output

end MapScript.CommandLine
