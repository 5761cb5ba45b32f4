/-!
# Paths

The parts of a path, and the limits on their lengths.
-/

namespace MapScript.CommandLine

structure Path where
  /-- Whether the path starts at the root. -/
  absolute : Bool
  /-- The names between the slashes. -/
  parts : List String
  /-- Whether a slash ends the path, which asks for a directory. -/
  slashed : Bool
deriving DecidableEq, Repr

namespace Path

/-- The most bytes a path can have. -/
def maxSize : Nat := 4095

/-- The most bytes a part can have. -/
def maxPartSize : Nat := 255

/-- Cuts a path at its slashes. Slashes next to one another count as one. -/
def ofString (text : String) : Path where
  absolute := text.startsWith "/"
  parts := (text.splitOn "/").filter (· ≠ "")
  slashed := text.endsWith "/"

end Path

end MapScript.CommandLine
