/-!
# Character ranges

A set of characters given by ranges of their numbers.
-/

namespace MapScript.Text

/-- The first and the last number of each range. -/
abbrev CharRanges := List (Nat × Nat)

namespace CharRanges

/-- Whether a character is in one of the ranges. -/
def contains (rs : CharRanges) (c : Char) : Bool :=
  rs.any fun (first, last) => first ≤ c.toNat && c.toNat ≤ last

end CharRanges

end MapScript.Text
