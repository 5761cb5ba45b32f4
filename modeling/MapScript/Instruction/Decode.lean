import MapScript.Instruction.Form

/-!
# Decoding

Reading one instruction from the code area of an image. The code area is the row of cells from the
image's first byte up to the info table, so that cell numbers and code offsets agree; the first two
cells are the image's header and hold no code.
-/

namespace MapScript

/-- Why a byte offset names no cell of the code area. -/
inductive OffsetError where
  | negative (offset : Int32)
  | unaligned (offset : Nat)
  | outside (offset : Nat)
deriving DecidableEq, Repr

namespace OffsetError

def message : OffsetError → String
  | negative offset => s!"negative code offset {offset.toInt}"
  | unaligned offset => s!"code offset {offset} is not cell aligned"
  | outside offset => s!"code offset {offset} outside code area"

end OffsetError

/-- Bytes in a cell. -/
def cellSize : Nat := 4

/-- Cells in the header, which comes before the code. -/
def headerCells : Nat := 2

/-- The cell at a byte offset into a code area of `codeEnd` cells. -/
def codeCell (codeEnd : Nat) (offset : Int32) : Except OffsetError Nat :=
  if offset < 0 then .error (.negative offset)
  else
    let n := offset.toInt.toNat
    if n % cellSize ≠ 0 then .error (.unaligned n)
    else if headerCells ≤ n / cellSize ∧ n / cellSize < codeEnd then .ok (n / cellSize)
    else .error (.outside n)

/-- Why a cell cannot be decoded. -/
inductive DecodeError where
  /-- The operands of the opcode do not fit in the code area. -/
  | truncated (op : Opcode) (pc : Nat)
  /-- The scope has no variable of this number. -/
  | noVariable (op : Opcode) (pc : Nat) (scope : VarScope) (index : Int32)
  | badTarget (op : Opcode) (pc : Nat) (cause : OffsetError)
deriving DecidableEq, Repr

namespace VarScope

def name : VarScope → String
  | script => "Script"
  | map => "Map"
  | world => "World"

end VarScope

namespace DecodeError

/-- The causes of an error, outermost first. -/
def causes : DecodeError → List String
  | truncated op pc => [s!"{op.name} at cell {pc} truncated by end of code area"]
  | noVariable op pc scope index =>
    [s!"{op.name} at cell {pc} addresses {scope.name} variable {index.toInt} of {scope.capacity}"]
  | badTarget op pc cause => [s!"{op.name} at cell {pc}", cause.message]

end DecodeError

/-- Reads the operands of an opcode at `pc` and makes its instruction. -/
def Form.read (op : Opcode) (code : Array Int32) (pc : Nat) :
    (form : Form) → pc + form.width < code.size → Except DecodeError Instruction
  | .plain instruction, _ => .ok instruction
  | .number make, h =>
    have : pc + 1 < code.size := h
    .ok (make code[pc + 1])
  | .numbers make, h =>
    have : pc + 2 < code.size := h
    .ok (make code[pc + 1] code[pc + 2])
  | .direct argc, h =>
    have : pc + (argc + 1) < code.size := h
    let args := List.ofFn fun i : Fin argc => code[pc + 2 + i]
    .ok (.lineSpecialDirect code[pc + 1] argc (SpecialArgs.ofList args))
  | .access varOp scope, h =>
    have : pc + 1 < code.size := h
    let index := code[pc + 1]
    if 0 ≤ index ∧ index.toInt.toNat < scope.capacity then
      .ok (.variable varOp scope index.toInt.toNat)
    else .error (.noVariable op pc scope index)
  | .branch make, h =>
    have : pc + 1 < code.size := h
    match codeCell code.size code[pc + 1] with
    | .ok target => .ok (make target)
    | .error cause => .error (.badTarget op pc cause)
  | .caseBranch make, h =>
    have : pc + 2 < code.size := h
    match codeCell code.size code[pc + 2] with
    | .ok target => .ok (make code[pc + 1] target)
    | .error cause => .error (.badTarget op pc cause)

/-- Decodes the instruction at a cell of the code area. A cell that names no opcode is an
instruction of its own. -/
def decodeAt (code : Array Int32) (pc : Nat) (inside : pc < code.size) :
    Except DecodeError Decoded :=
  match Opcode.ofCode? code[pc] with
  | none => .ok { instruction := .unknown code[pc], next := pc + 1 }
  | some op =>
    if h : pc + op.operandCells < code.size then
      match op.form.read op code pc h with
      | .ok instruction => .ok { instruction, next := pc + 1 + op.operandCells }
      | .error e => .error e
    else .error (.truncated op pc)

end MapScript
