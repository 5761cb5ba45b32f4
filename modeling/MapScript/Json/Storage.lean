import MapScript.Json.Basic

/-!
# Stored values

Some values have to be stored whole before it is known how to read them. A store holds only strings
that denote text and numbers that are finite, and containers only to a certain depth.
-/

namespace MapScript.Json

/-- How many containers a store holds inside one another. -/
def storageDepth : Nat := 127

mutual

/-- Whether a store that has `depth` levels of containers left can hold a value. -/
def fits (depth : Nat) : Json → Bool
  | .null | .bool _ => true
  | .int n => (Numeral.ofNat n.natAbs).isFinite
  | .real n => n.isFinite
  | .str s => s.text.isSome
  | .arr vs => 0 < depth && itemsFit (depth - 1) vs
  | .obj ms => 0 < depth && membersFit (depth - 1) ms

/-- Whether every item fits. -/
def itemsFit (depth : Nat) : List Json → Bool
  | [] => true
  | v :: vs => fits depth v && itemsFit depth vs

/-- Whether every name and value fits. -/
def membersFit (depth : Nat) : List (Literal × Json) → Bool
  | [] => true
  | (name, v) :: ms => name.text.isSome && fits depth v && membersFit depth ms

end

/-- The value a store gives back, when it can hold it. -/
def stored? (j : Json) : Option Json :=
  if j.fits storageDepth then some j else none

end MapScript.Json
