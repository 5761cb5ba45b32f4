/-!
# Faults

The conditions that end a script instance from inside.
-/

namespace MapScript

inductive Fault where
  | unknownOpcode (code : Int32)
  | divideByZero
  | moduloByZero
  /-- More instructions in one slice than the limit allows. -/
  | runaway (limit : UInt32)
  | stackOverflow
  | stackUnderflow
  | badString (index : Int32)
  | badInstructionPointer (pc : Nat)
deriving DecidableEq, Repr

namespace Fault

def message : Fault → String
  | unknownOpcode code => s!"unknown opcode {code.toInt}"
  | divideByZero => "division by zero"
  | moduloByZero => "modulus by zero"
  | runaway limit => s!"runaway script: more than {limit.toNat} instructions in one tick"
  | stackOverflow => "operand stack overflow"
  | stackUnderflow => "operand stack underflow"
  | badString index => s!"string index {index.toInt} is not in the string table"
  | badInstructionPointer pc => s!"instruction pointer {pc} does not address an instruction"

end Fault

end MapScript
