/-!
# Decimal integers

Reading an integer from its digits, within given bounds. The text is scanned from the left and the
first thing wrong decides the cause.
-/

namespace MapScript.Text.Decimal

/-- Why a text is not a decimal integer within its bounds. -/
inductive Cause where
  | empty
  | badDigit
  | tooLarge
  | tooSmall
deriving DecidableEq, Repr

namespace Cause

def message : Cause → String
  | empty => "cannot parse integer from empty string"
  | badDigit => "invalid digit found in string"
  | tooLarge => "number too large to fit in target type"
  | tooSmall => "number too small to fit in target type"

end Cause

/-- The value of a decimal digit. -/
def digit? (c : Char) : Option Nat :=
  if '0' ≤ c ∧ c ≤ '9' then some (c.toNat - '0'.toNat) else none

/-- Reads digits after the value `acc`, never going above `limit`. -/
def readDigits (limit : Nat) (overflow : Cause) : Nat → List Char → Except Cause Nat
  | acc, [] => .ok acc
  | acc, c :: cs =>
    match digit? c with
    | none => .error .badDigit
    | some d =>
      if 10 * acc + d ≤ limit then readDigits limit overflow (10 * acc + d) cs
      else .error overflow

/-- Reads an integer between `low` and `high`. A plus sign is allowed, a minus sign only where
negative numbers are in bounds; at least one digit must follow. -/
def read (low high : Int) : List Char → Except Cause Int
  | [] => .error .empty
  | '+' :: [] => .error .badDigit
  | '-' :: [] => .error .badDigit
  | '+' :: cs => do return (← readDigits high.toNat .tooLarge 0 cs)
  | '-' :: cs =>
    if low < 0 then do return - (← readDigits (-low).toNat .tooSmall 0 cs)
    else .error .badDigit
  | cs => do return (← readDigits high.toNat .tooLarge 0 cs)

def readInt32 (cs : List Char) : Except Cause Int32 :=
  Int32.ofInt <$> read (-2147483648) 2147483647 cs

def readUInt32 (cs : List Char) : Except Cause UInt32 :=
  (fun n => UInt32.ofNat n.toNat) <$> read 0 4294967295 cs

def readInt64 (cs : List Char) : Except Cause Int :=
  read (-9223372036854775808) 9223372036854775807 cs

def readUInt64 (cs : List Char) : Except Cause UInt64 :=
  (fun n => UInt64.ofNat n.toNat) <$> read 0 18446744073709551615 cs

end MapScript.Text.Decimal
