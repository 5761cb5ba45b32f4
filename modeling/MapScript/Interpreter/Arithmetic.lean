import MapScript.Fault
import MapScript.Instruction.Basic

/-!
# Arithmetic

The operators of scripts on 32-bit integers. Results wrap around, division goes toward zero, shifts
take their amount modulo 32, and a truth value is one or zero.
-/

namespace MapScript

/-- A truth value as a number. -/
def truth (b : Bool) : Int32 := if b then 1 else 0

namespace BinaryOp

def eval : BinaryOp → Int32 → Int32 → Except Fault Int32
  | add, left, right => .ok (left + right)
  | subtract, left, right => .ok (left - right)
  | multiply, left, right => .ok (left * right)
  | divide, left, right => if right = 0 then .error .divideByZero else .ok (left / right)
  | modulus, left, right => if right = 0 then .error .moduloByZero else .ok (left % right)
  | eq, left, right => .ok (truth (left = right))
  | ne, left, right => .ok (truth (left ≠ right))
  | lt, left, right => .ok (truth (left < right))
  | gt, left, right => .ok (truth (left > right))
  | le, left, right => .ok (truth (left ≤ right))
  | ge, left, right => .ok (truth (left ≥ right))
  | andLogical, left, right => .ok (truth (left ≠ 0 ∧ right ≠ 0))
  | orLogical, left, right => .ok (truth (left ≠ 0 ∨ right ≠ 0))
  | andBitwise, left, right => .ok (left &&& right)
  | orBitwise, left, right => .ok (left ||| right)
  | eorBitwise, left, right => .ok (left ^^^ right)
  | lShift, left, right => .ok (left <<< right)
  | rShift, left, right => .ok (left >>> right)

end BinaryOp

namespace UnaryOp

def eval : UnaryOp → Int32 → Int32
  | negateLogical, value => truth (value = 0)
  | minus, value => -value

end UnaryOp

end MapScript
