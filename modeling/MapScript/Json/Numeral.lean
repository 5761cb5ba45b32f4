/-!
# Numerals

A number as its digits. A numeral is held as a significand of 64 bits and a power of ten, which
together stand for the product of two values rounded to 53 binary digits. A numeral whose product
is beyond the largest such value cannot be held.
-/

namespace MapScript

/-- The digits of a number before and after its point, and the power of ten they are multiplied
by. -/
structure Numeral where
  whole : List Nat
  fraction : List Nat := []
  exponent : Int := 0
deriving DecidableEq, Repr

namespace Numeral

/-- The decimal digits of a number. -/
def ofNat (n : Nat) : Numeral where
  whole := (Nat.toDigits 10 n).map fun c => c.toNat - '0'.toNat

/-- Takes digits onto a significand until one would carry it beyond 64 bits: the significand, and
the digits that are left. -/
def gather (significand : Nat) : List Nat → Nat × List Nat
  | [] => (significand, [])
  | d :: ds =>
    if 10 * significand + d < UInt64.size then gather (10 * significand + d) ds
    else (significand, d :: ds)

/-- The significand and its power of ten. A whole digit that is left over still counts for the
power; a digit of the fraction that is left over does not. -/
def scaled (n : Numeral) : Nat × Int :=
  let (upper, dropped) := gather 0 n.whole
  let (significand, ignored) := gather upper n.fraction
  (significand, n.exponent + dropped.length - (n.fraction.length - ignored.length))

/-- Rounds to 53 binary digits, a half to the even neighbour. -/
def round (n : Nat) : Nat :=
  let unit := 1 <<< (n.log2 - 52)
  let q := n / unit
  let r := n % unit
  if unit < 2 * r ∨ (unit = 2 * r ∧ q % 2 = 1) then (q + 1) * unit else q * unit

/-- Products from here on round beyond the largest value. -/
def overflow : Nat := 1 <<< 1024 - 1 <<< 970

/-- Whether a numeral can be held. -/
def isFinite (n : Numeral) : Bool :=
  let (significand, power) := n.scaled
  significand == 0 || power < 0 ||
    (power ≤ 308 && round significand * round (Nat.pow 10 power.toNat) < overflow)

end Numeral

end MapScript
