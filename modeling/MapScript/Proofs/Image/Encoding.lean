import Mathlib.Algebra.Group.Nat.Defs
import MapScript.Proofs.Image.Cells
import MapScript.Proofs.Image.CheckedCode
import MapScript.Proofs.Image.Format

/-!
# Instructions back to cells

`Instruction.encode` writes an instruction as its opcode and operands, and decoding is the inverse:
an instruction that was decoded is written in exactly the cells it was read from, and an instruction
with fields in range that is written in the code area is decoded again.

Both ways go through `Reads`, what the form of an opcode reads from the operand cells.

* `Reads.written`: what is read is written in the cells it was read from, and is in range.
* `reads_of_written`: what is in range and written in the cells is read.
-/

namespace MapScript

/-! ## Encoding -/

/-- The opcode that applies an operator. -/
def BinaryOp.opcode : BinaryOp → Opcode
  | add => .add
  | subtract => .subtract
  | multiply => .multiply
  | divide => .divide
  | modulus => .modulus
  | eq => .eq
  | ne => .ne
  | lt => .lt
  | gt => .gt
  | le => .le
  | ge => .ge
  | andLogical => .andLogical
  | orLogical => .orLogical
  | andBitwise => .andBitwise
  | orBitwise => .orBitwise
  | eorBitwise => .eorBitwise
  | lShift => .lShift
  | rShift => .rShift

/-- The cell that names a line special with so many arguments. The opcodes go through the numbers of
arguments in order, from `one` on. -/
def specialCode (one : Opcode) (argc : Nat) : Int32 := Int32.ofNat (one.toNat + (argc - 1))

/-- The byte offset of a cell. -/
def offsetOf (cell : Nat) : Int32 := Int32.ofNat (cellSize * cell)

namespace Instruction

/-- The cells an instruction is written in: its opcode and its operands. -/
def encode : Instruction → List Int32
  | nop => [Opcode.nop.code]
  | terminate => [Opcode.terminate.code]
  | suspend => [Opcode.suspend.code]
  | pushNumber value => [Opcode.pushNumber.code, value]
  | lineSpecial special argc => [specialCode .lSpec1 argc, special]
  | lineSpecialDirect special argc args =>
    specialCode .lSpec1Direct argc :: special :: args.toList.take argc
  | binary op => [op.opcode.code]
  | unary .negateLogical => [Opcode.negateLogical.code]
  | unary .minus => [Opcode.unaryMinus.code]
  | .variable op scope index => [op.code scope, Int32.ofNat index]
  | goto target => [Opcode.goto.code, offsetOf target]
  | ifGoto target => [Opcode.ifGoto.code, offsetOf target]
  | ifNotGoto target => [Opcode.ifNotGoto.code, offsetOf target]
  | caseGoto value target => [Opcode.caseGoto.code, value, offsetOf target]
  | drop => [Opcode.drop.code]
  | delay => [Opcode.delay.code]
  | delayDirect ticks => [Opcode.delayDirect.code, ticks]
  | random => [Opcode.random.code]
  | randomDirect min max => [Opcode.randomDirect.code, min, max]
  | thingCount => [Opcode.thingCount.code]
  | thingCountDirect thingType tid => [Opcode.thingCountDirect.code, thingType, tid]
  | tagWait => [Opcode.tagWait.code]
  | tagWaitDirect tag => [Opcode.tagWaitDirect.code, tag]
  | polyWait => [Opcode.polyWait.code]
  | polyWaitDirect poly => [Opcode.polyWaitDirect.code, poly]
  | scriptWait => [Opcode.scriptWait.code]
  | scriptWaitDirect script => [Opcode.scriptWaitDirect.code, script]
  | changeFlat .floor => [Opcode.changeFloor.code]
  | changeFlat .ceiling => [Opcode.changeCeiling.code]
  | changeFlatDirect .floor tag flat => [Opcode.changeFloorDirect.code, tag, flat]
  | changeFlatDirect .ceiling tag flat => [Opcode.changeCeilingDirect.code, tag, flat]
  | restart => [Opcode.restart.code]
  | lineSide => [Opcode.lineSide.code]
  | clearLineSpecial => [Opcode.clearLineSpecial.code]
  | beginPrint => [Opcode.beginPrint.code]
  | printString => [Opcode.printString.code]
  | printNumber => [Opcode.printNumber.code]
  | printCharacter => [Opcode.printCharacter.code]
  | endPrint => [Opcode.endPrint.code]
  | endPrintBold => [Opcode.endPrintBold.code]
  | playerCount => [Opcode.playerCount.code]
  | gameType => [Opcode.gameType.code]
  | gameSkill => [Opcode.gameSkill.code]
  | timer => [Opcode.timer.code]
  | sectorSound => [Opcode.sectorSound.code]
  | ambientSound => [Opcode.ambientSound.code]
  | soundSequence => [Opcode.soundSequence.code]
  | thingSound => [Opcode.thingSound.code]
  | setLineTexture => [Opcode.setLineTexture.code]
  | setLineBlocking => [Opcode.setLineBlocking.code]
  | setLineSpecial => [Opcode.setLineSpecial.code]
  | unknown code => [code]

/-- The fields of the instruction are such as there can be in a code area of `codeEnd` cells. -/
def InRange (codeEnd : Nat) : Instruction → Prop
  | lineSpecial _ argc => 1 ≤ argc ∧ argc ≤ specialArgCount
  | lineSpecialDirect _ argc args =>
    (1 ≤ argc ∧ argc ≤ specialArgCount) ∧ ∀ k : Fin specialArgCount, argc ≤ k → args[k] = 0
  | .variable _ scope index => index < scope.capacity
  | goto target | ifGoto target | ifNotGoto target | caseGoto _ target =>
    headerCells ≤ target ∧ target < codeEnd
  | unknown code => Opcode.ofCode? code = none
  | _ => True

/-- An opcode and as many operands as it has, a branch target last and as a byte offset. A cell that
names no opcode stands alone. -/
def LaidOut (i : Instruction) (cells : List Int32) : Prop :=
  (∃ code, i = .unknown code ∧ cells = [code]) ∨
  ∃ (op : Opcode) (operands : List Int32), cells = op.code :: operands ∧
    operands.length = op.operandCells ∧
    ∀ target, i.branchTarget? = some target → operands.getLast? = some (Int32.ofNat (4 * target))

end Instruction

/-- The cells from `pc` to the next instruction are those the instruction is written in. -/
structure Decoded.WrittenAt (d : Decoded) (cells : Array Int32) (pc : Nat) : Prop where
  next : d.next = pc + d.instruction.encode.length
  inside : d.next ≤ cells.size
  cells : (cells.extract pc d.next).toList = d.instruction.encode

/-! ## Forms -/

/-- How the instructions of a form are written, behind the cell of their opcode. -/
def Form.Spells (head : Int32) : Form → Prop
  | .plain instruction => instruction.encode = [head]
  | .number make => ∀ value, (make value).encode = [head, value]
  | .numbers make => ∀ first second, (make first second).encode = [head, first, second]
  | .direct argc => specialCode .lSpec1Direct argc = head
  | .access op scope => op.code scope = head
  | .branch make => ∀ target, (make target).encode = [head, offsetOf target]
  | .caseBranch make => ∀ value target, (make value target).encode = [head, value, offsetOf target]

/-- Which instructions of a form are in range. -/
def Form.Ranges (codeEnd : Nat) : Form → Prop
  | .plain instruction => instruction.InRange codeEnd
  | .number make => ∀ value, (make value).InRange codeEnd
  | .numbers make => ∀ first second, (make first second).InRange codeEnd
  | .direct argc => argc.val ≠ 0
  | .access _ _ => True
  | .branch make => ∀ target,
    (make target).InRange codeEnd ↔ headerCells ≤ target ∧ target < codeEnd
  | .caseBranch make => ∀ value target,
    (make value target).InRange codeEnd ↔ headerCells ≤ target ∧ target < codeEnd

theorem Opcode.form_spells (op : Opcode) : op.form.Spells op.code := by
  cases op <;> simp only [Opcode.form, Form.Spells] <;> intros <;> rfl

theorem Opcode.form_ranges (op : Opcode) (codeEnd : Nat) : op.form.Ranges codeEnd := by
  cases op <;> simp [Opcode.form, Form.Ranges, Instruction.InRange, specialArgCount]

theorem Opcode.exists_special {argc : Nat} (h : 1 ≤ argc) (h' : argc ≤ specialArgCount) :
    (∃ op : Opcode, op.code = specialCode .lSpec1 argc ∧ op.form = .number (.lineSpecial · argc)) ∧
    ∃ (op : Opcode) (count : Fin 6), op.code = specialCode .lSpec1Direct argc ∧
      op.form = .direct count ∧ count = argc := by
  match argc, h, h' with
  | 1, _, _ => exact ⟨⟨.lSpec1, rfl, rfl⟩, .lSpec1Direct, 1, rfl, rfl, rfl⟩
  | 2, _, _ => exact ⟨⟨.lSpec2, rfl, rfl⟩, .lSpec2Direct, 2, rfl, rfl, rfl⟩
  | 3, _, _ => exact ⟨⟨.lSpec3, rfl, rfl⟩, .lSpec3Direct, 3, rfl, rfl, rfl⟩
  | 4, _, _ => exact ⟨⟨.lSpec4, rfl, rfl⟩, .lSpec4Direct, 4, rfl, rfl, rfl⟩
  | 5, _, _ => exact ⟨⟨.lSpec5, rfl, rfl⟩, .lSpec5Direct, 5, rfl, rfl, rfl⟩

/-! ## Cells that hold numbers -/

/-- A cell that names an opcode is the cell of that opcode. -/
theorem Opcode.code_of_ofCode? {cell : Int32} {op : Opcode} (h : Opcode.ofCode? cell = some op) :
    op.code = cell := by
  have hplaces : ∀ n : Fin Opcode.table.size, Opcode.table[n].1.toNat = n := by decide
  unfold Opcode.ofCode? at h
  split at h
  · cases h
  · rename_i hneg
    obtain ⟨entry, hentry, rfl⟩ := Option.map_eq_some_iff.1 h
    obtain ⟨hlt, rfl⟩ := Array.getElem?_eq_some_iff.1 hentry
    calc
      Opcode.table[cell.toInt.toNat].1.code = Int32.ofNat cell.toInt.toNat :=
        congrArg Int32.ofNat (hplaces ⟨_, hlt⟩)
      _ = cell := Int32.ofNat_toNatClampNeg cell (Int32.not_lt.1 hneg)

theorem offsetOf_of_codeCell {codeEnd cell : Nat} {offset : Int32}
    (h : codeCell codeEnd offset = .ok cell) : offsetOf cell = offset := by
  obtain ⟨_, _, hnonneg, hoffset⟩ := codeCell_eq_ok h
  rw [offsetOf, ← hoffset]
  exact Int32.ofNat_toNatClampNeg offset hnonneg

/-- Up to `2 ^ 29` cells, the byte offset of a cell does not run over. -/
theorem codeCell_offsetOf {codeEnd cell : Nat} (hsmall : codeEnd ≤ 2 ^ 29)
    (hcell : headerCells ≤ cell ∧ cell < codeEnd) :
    codeCell codeEnd (offsetOf cell) = .ok cell := by
  have hvalue : (offsetOf cell).toInt = 4 * cell := by
    rw [offsetOf, Int32.toInt_ofNat_of_lt]
    · rfl
    · simp only [cellSize]
      omega
  rw [Image.codeCell_eq_ok_iff, hvalue]
  simp only [headerCells] at hcell
  omega

namespace Checked

/-! ## Computations that succeed -/

section

variable {ε α β : Type}

theorem done_ok_inj {a b : α} (h : (done (.ok a) : Checked ε α) = done (.ok b)) : a = b :=
  Except.ok.inj (Except.ok.inj h)

theorem bind_eq_done_iff {x : Checked ε α} {f : α → Checked ε β} {b : β} :
    (x >>= f) = done (.ok b) ↔ ∃ a, x = done (.ok a) ∧ f a = done (.ok b) := by
  constructor
  · intro h
    match x, h with
    | .ok (.ok a), h => exact ⟨a, rfl, h⟩
    | .ok (.error _), h => cases h
    | .error _, h => cases h
  · rintro ⟨a, rfl, h⟩
    exact h

theorem index_eq_done {xs : Array α} {i : Nat} {x : α}
    (h : (index xs i : Checked ε α) = done (.ok x)) : xs[i]? = some x := by
  unfold index at h
  split at h
  · rename_i y hy
    rw [hy, done_ok_inj h]
  · cases h

theorem add_eq_done {a b c : Nat} (h : (add a b : Checked ε Nat) = done (.ok c)) : c = a + b := by
  unfold add at h
  split at h
  · exact (done_ok_inj h).symm
  · cases h

theorem range_eq_done {xs ys : Array α} {start stop : Nat}
    (h : (range xs start stop : Checked ε (Array α)) = done (.ok ys)) :
    stop ≤ xs.size ∧ ys = xs.extract start stop := by
  unfold range at h
  split at h
  · rename_i hinside
    exact ⟨hinside.2, (done_ok_inj h).symm⟩
  · cases h

end

/-! ## What the form of an opcode reads -/

section

variable {op : Opcode} {pc codeEnd : Nat} {i : Instruction}

theorem readForm_direct {argc : Fin 6} (special : Int32) {args : List Int32}
    (hargs : args.length = argc) :
    readForm op (special :: args).toArray pc codeEnd (.direct argc) =
      done (.ok (.lineSpecialDirect special argc (SpecialArgs.ofList args))) := by
  have hcount : (argc : Nat) ≤ (Array.replicate specialArgCount (0 : Int32)).size := by
    rw [Array.size_replicate, specialArgCount]
    omega
  have hrest : (special :: args).toArray.extract 1 (special :: args).toArray.size =
      args.toArray := by
    simp
  simp only [readForm]
  rw [range_eq (by simp) (Nat.le_refl _), pure_bind, hrest, copy_eq hcount (by simpa using hargs),
    pure_bind, Array.extract_replicate, Array.toList_append, Array.toList_replicate, ofList_pad]
  rfl

theorem readForm_access (varOp : VarOp) (scope : VarScope) (number : Int32) :
    readForm op [number].toArray pc codeEnd (.access varOp scope) =
      done (if 0 ≤ number ∧ number.toInt.toNat < scope.capacity
        then .ok (.variable varOp scope number.toInt.toNat)
        else .error (.noVariable op pc scope number)) := by
  change (if 0 ≤ number ∧ number.toInt.toNat < scope.capacity then _ else _) = _
  split <;> rfl

theorem readTarget_eq_done_iff {offset : Int32} {target : Nat} :
    readTarget op pc codeEnd offset = done (.ok target) ↔ codeCell codeEnd offset = .ok target := by
  unfold readTarget
  cases codeCell codeEnd offset with
  | ok found =>
      constructor
      · exact fun h => congrArg Except.ok (done_ok_inj h)
      · rintro ⟨⟩
        rfl
  | error cause =>
      constructor
      · intro h
        cases h
      · intro h
        cases h

theorem readForm_branch (make : Nat → Instruction) {target : Nat} (hsmall : codeEnd ≤ 2 ^ 29)
    (htarget : headerCells ≤ target ∧ target < codeEnd) :
    readForm op [offsetOf target].toArray pc codeEnd (.branch make) = done (.ok (make target)) :=
  (bind_eq_done_iff (x := readTarget op pc codeEnd (offsetOf target))).2
    ⟨target, readTarget_eq_done_iff.2 (codeCell_offsetOf hsmall htarget), rfl⟩

theorem readForm_caseBranch (make : Int32 → Nat → Instruction) (value : Int32) {target : Nat}
    (hsmall : codeEnd ≤ 2 ^ 29) (htarget : headerCells ≤ target ∧ target < codeEnd) :
    readForm op [value, offsetOf target].toArray pc codeEnd (.caseBranch make) =
      done (.ok (make value target)) :=
  (bind_eq_done_iff (x := readTarget op pc codeEnd (offsetOf target))).2
    ⟨target, readTarget_eq_done_iff.2 (codeCell_offsetOf hsmall htarget), rfl⟩

theorem target_of_readTarget {offset : Int32} {target : Nat}
    (h : readTarget op pc codeEnd offset = done (.ok target)) :
    offsetOf target = offset ∧ headerCells ≤ target ∧ target < codeEnd := by
  have hcell := readTarget_eq_done_iff.1 h
  obtain ⟨hheader, hend, _⟩ := codeCell_eq_ok hcell
  exact ⟨offsetOf_of_codeCell hcell, hheader, hend⟩

/-- Operands from which a form makes an instruction are those the instruction is written with. -/
theorem encode_of_readForm {form : Form} {head : Int32} {operands : List Int32}
    (hspells : form.Spells head) (hranges : form.Ranges codeEnd)
    (hwidth : operands.length = form.width)
    (hread : readForm op operands.toArray pc codeEnd form = done (.ok i)) :
    i.encode = head :: operands ∧ i.InRange codeEnd := by
  cases form with
  | plain instruction =>
      obtain rfl := List.length_eq_zero_iff.1 hwidth
      obtain rfl : instruction = i := done_ok_inj hread
      exact ⟨hspells, hranges⟩
  | number make =>
      obtain ⟨value, rfl⟩ := List.length_eq_one_iff.1 hwidth
      obtain rfl : make value = i := done_ok_inj hread
      exact ⟨hspells value, hranges value⟩
  | numbers make =>
      obtain ⟨first, second, rfl⟩ := List.length_eq_two.1 hwidth
      obtain rfl : make first second = i := done_ok_inj hread
      exact ⟨hspells first second, hranges first second⟩
  | direct argc =>
      obtain ⟨special, args, rfl⟩ := List.exists_cons_of_length_eq_add_one hwidth
      have hargs : args.length = argc := Nat.succ.inj hwidth
      have hcount : args.length ≤ specialArgCount := by
        rw [hargs, specialArgCount]
        omega
      rw [readForm_direct special hargs] at hread
      obtain rfl := done_ok_inj hread
      refine ⟨?encode, ⟨⟨Nat.pos_of_ne_zero hranges, hargs ▸ hcount⟩, ?rest⟩⟩
      case encode =>
        simp only [Form.Spells] at hspells
        rw [Instruction.encode, hspells, SpecialArgs.toList_ofList hcount, List.take_left' hargs]
      case rest =>
        intro k hk
        exact SpecialArgs.getElem_ofList_of_le (hargs ▸ hk)
  | access varOp scope =>
      obtain ⟨number, rfl⟩ := List.length_eq_one_iff.1 hwidth
      rw [readForm_access] at hread
      split at hread
      · rename_i hnumber
        obtain rfl := done_ok_inj hread
        refine ⟨?_, hnumber.2⟩
        simp only [Form.Spells] at hspells
        rw [Instruction.encode, hspells]
        exact congrArg ([head, ·]) (Int32.ofNat_toNatClampNeg number hnumber.1)
      · cases hread
  | branch make =>
      obtain ⟨offset, rfl⟩ := List.length_eq_one_iff.1 hwidth
      obtain ⟨target, htarget, hmake⟩ :=
        (bind_eq_done_iff (x := readTarget op pc codeEnd offset)).1 hread
      obtain rfl : make target = i := done_ok_inj hmake
      obtain ⟨rfl, hrange⟩ := target_of_readTarget htarget
      exact ⟨hspells target, (hranges target).2 hrange⟩
  | caseBranch make =>
      obtain ⟨value, offset, rfl⟩ := List.length_eq_two.1 hwidth
      obtain ⟨target, htarget, hmake⟩ :=
        (bind_eq_done_iff (x := readTarget op pc codeEnd offset)).1 hread
      obtain rfl : make value target = i := done_ok_inj hmake
      obtain ⟨rfl, hrange⟩ := target_of_readTarget htarget
      exact ⟨hspells value target, (hranges value target).2 hrange⟩

/-- An instruction in range is written with operands from which the form of its opcode makes it;
only a cell that names no opcode has none. -/
theorem readForm_of_inRange (pc : Nat) (hrange : i.InRange codeEnd) :
    (∃ code, i = .unknown code) ∨
      ∃ (op : Opcode) (operands : List Int32), i.encode = op.code :: operands ∧
        operands.length = op.operandCells ∧ (codeEnd ≤ 2 ^ 29 →
          readForm op operands.toArray pc codeEnd op.form = done (.ok i)) := by
  cases i with
  | unknown code => exact .inl ⟨code, rfl⟩
  | lineSpecial special argc =>
      obtain ⟨⟨op, hcode, hform⟩, _⟩ := Opcode.exists_special hrange.1 hrange.2
      refine .inr ⟨op, [special], ?encode, ?length, fun _ => ?read⟩
      case encode => rw [hcode, Instruction.encode]
      case length => rw [Opcode.operandCells, hform]; rfl
      case read => rw [hform]; rfl
  | lineSpecialDirect special argc args =>
      obtain ⟨⟨hfirst, hlast⟩, hrest⟩ := hrange
      obtain ⟨_, op, count, hcode, hform, rfl⟩ := Opcode.exists_special hfirst hlast
      have hargs : (args.toList.take count).length = count := by
        rw [List.length_take, Vector.length_toList]
        omega
      refine .inr ⟨op, special :: args.toList.take count, ?encode, ?length, fun _ => ?read⟩
      case encode => rw [hcode, Instruction.encode]
      case length => rw [Opcode.operandCells, hform, List.length_cons, hargs]; rfl
      case read => rw [hform, readForm_direct special hargs, SpecialArgs.ofList_take hrest]
  | «variable» varOp scope index =>
      obtain ⟨op, hcode, hform⟩ := varOp.exists_opcode scope
      obtain ⟨hnonneg, hvalue⟩ := VarScope.index_back hrange
      refine .inr ⟨op, [Int32.ofNat index], ?encode, ?length, fun _ => ?read⟩
      case encode => rw [hcode, Instruction.encode]
      case length => rw [Opcode.operandCells, hform]; rfl
      case read => rw [hform, readForm_access, hvalue, if_pos ⟨hnonneg, hrange⟩]
  | goto target =>
      exact .inr ⟨.goto, [offsetOf target], rfl, rfl, fun h => readForm_branch .goto h hrange⟩
  | ifGoto target =>
      exact .inr ⟨.ifGoto, [offsetOf target], rfl, rfl, fun h => readForm_branch .ifGoto h hrange⟩
  | ifNotGoto target =>
      exact .inr ⟨.ifNotGoto, [offsetOf target], rfl, rfl,
        fun h => readForm_branch .ifNotGoto h hrange⟩
  | caseGoto value target =>
      exact .inr ⟨.caseGoto, [value, offsetOf target], rfl, rfl,
        fun h => readForm_caseBranch .caseGoto value h hrange⟩
  | binary op => cases op <;> exact .inr ⟨_, [], rfl, rfl, fun _ => rfl⟩
  | unary op => cases op <;> exact .inr ⟨_, [], rfl, rfl, fun _ => rfl⟩
  | changeFlat surface => cases surface <;> exact .inr ⟨_, [], rfl, rfl, fun _ => rfl⟩
  | changeFlatDirect surface tag flat =>
      cases surface <;> exact .inr ⟨_, [tag, flat], rfl, rfl, fun _ => rfl⟩
  | _ =>
      -- the opcode and the operands are the ones that `encode` writes
      exact .inr ⟨_, _, rfl, rfl, fun _ => rfl⟩

end

end Checked

theorem Instruction.laidOut_encode {codeEnd : Nat} {i : Instruction} (hrange : i.InRange codeEnd) :
    i.LaidOut i.encode := by
  rcases Checked.readForm_of_inRange 0 hrange with ⟨code, rfl⟩ | ⟨op, operands, hencode, hlength, _⟩
  · exact .inl ⟨code, rfl, rfl⟩
  · refine .inr ⟨op, operands, hencode, hlength, ?_⟩
    intro target htarget
    have hlast : i.encode.tail.getLast? = some (offsetOf target) := by
      cases i <;> cases htarget <;> rfl
    rw [hencode] at hlast
    exact hlast

/-! ## Whole instructions -/

/-- What decoding comes to: a cell that names no opcode is kept as it is, and otherwise the form of
the opcode makes the instruction from the operand cells. -/
inductive Reads (cells : Array Int32) (pc codeEnd : Nat) : Decoded → Prop
  | unknown (inside : pc < cells.size) (hcell : Opcode.ofCode? cells[pc] = none) :
      Reads cells pc codeEnd ⟨.unknown cells[pc], pc + 1⟩
  | opcode {op : Opcode} {i : Instruction} (inside : pc < cells.size)
      (hop : Opcode.ofCode? cells[pc] = some op) (hfits : pc + 1 + op.operandCells ≤ cells.size)
      (hread : Checked.readForm op (cells.extract (pc + 1) (pc + 1 + op.operandCells)) pc codeEnd
        op.form = Checked.done (.ok i)) :
      Reads cells pc codeEnd ⟨i, pc + 1 + op.operandCells⟩

section

variable {code cells beyond : Array Int32} {pc codeEnd : Nat} {d : Decoded}

theorem Decodes.reads (h : Decodes code pc d) : Reads code pc code.size d := by
  obtain ⟨inside, h⟩ := h
  unfold decodeAt at h
  split at h
  · rename_i hcell
    cases h
    exact .unknown inside hcell
  · rename_i op hop
    split at h
    · rename_i hfits
      split at h
      · rename_i i hread
        cases h
        refine .opcode inside hop (by omega) ?_
        rw [Opcode.operandCells, Checked.readForm_eq op op.form hfits, hread]
      · cases h
    · cases h

theorem Reads.decodes (h : Reads code pc code.size d) : Decodes code pc d := by
  cases h with
  | unknown inside hcell =>
      refine ⟨inside, ?_⟩
      rw [decodeAt, hcell]
  | @opcode op i inside hop hfits hread =>
      have hwidth : pc + op.operandCells < code.size := by omega
      rw [Opcode.operandCells, Checked.readForm_eq op op.form hwidth] at hread
      have hform : op.form.read op code pc hwidth = .ok i := Except.ok.inj hread
      refine ⟨inside, ?_⟩
      rw [decodeAt, hop]
      simp only
      rw [dif_pos hwidth, hform]

theorem Checked.reads_of_decodeAt (h : Checked.decodeAt cells pc codeEnd = Checked.done (.ok d)) :
    Reads cells pc codeEnd d := by
  obtain ⟨cell, hcell, h⟩ := Checked.bind_eq_done_iff.1 h
  obtain ⟨inside, rfl⟩ := Array.getElem?_eq_some_iff.1 (Checked.index_eq_done hcell)
  split at h
  · rename_i hnone
    obtain ⟨next, hnext, h⟩ := Checked.bind_eq_done_iff.1 h
    obtain rfl := Checked.add_eq_done hnext
    obtain rfl := Checked.done_ok_inj h
    exact .unknown inside hnone
  · rename_i op hop
    obtain ⟨last, _, h⟩ := Checked.bind_eq_done_iff.1 h
    split at h
    · -- the decoder works out where the operands start three times over
      simp only [Checked.bind_eq_done_iff] at h
      obtain ⟨start, hstart, start', hstart', stop, hstop, operands, hoperands, start'', hstart'',
        next, hnext, i, hread, h⟩ := h
      obtain rfl := Checked.done_ok_inj h
      obtain rfl := Checked.add_eq_done hstart
      obtain rfl := Checked.add_eq_done hstart'
      obtain rfl := Checked.add_eq_done hstart''
      obtain rfl := Checked.add_eq_done hstop
      obtain rfl := Checked.add_eq_done hnext
      obtain ⟨hfits, rfl⟩ := Checked.range_eq_done hoperands
      rw [Checked.readInstruction_eq, Checked.operandCells_eq] at hread
      rw [Checked.operandCells_eq] at hfits ⊢
      exact .opcode inside hop hfits hread
    · cases h

theorem toList_extract_cons {next : Nat} (inside : pc < cells.size) (hnext : pc < next) :
    (cells.extract pc next).toList = cells[pc] :: (cells.extract (pc + 1) next).toList := by
  have hcount : next - pc = next - (pc + 1) + 1 := by omega
  rw [Array.toList_extract, Array.toList_extract, List.extract_eq_take_drop,
    List.extract_eq_take_drop, List.drop_eq_getElem_cons (by simpa using inside), hcount,
    List.take_succ_cons, Array.getElem_toList]

theorem Reads.written (h : Reads cells pc codeEnd d) :
    d.WrittenAt cells pc ∧ d.instruction.InRange codeEnd := by
  cases h with
  | unknown inside hcell =>
      refine ⟨⟨rfl, inside, ?_⟩, hcell⟩
      rw [toList_extract_cons inside (Nat.lt_succ_self pc),
        Array.extract_empty_of_stop_le_start (Nat.le_refl _)]
      rfl
  | @opcode op i inside hop hfits hread =>
      have hlength : (cells.extract (pc + 1) (pc + 1 + op.operandCells)).toList.length =
          op.form.width := by
        rw [Array.length_toList, Array.size_extract, ← Opcode.operandCells]
        omega
      obtain ⟨hencode, hrange⟩ := Checked.encode_of_readForm op.form_spells
        (op.form_ranges codeEnd) hlength hread
      rw [Opcode.code_of_ofCode? hop, ← toList_extract_cons inside (by omega)] at hencode
      refine ⟨⟨?_, hfits, hencode.symm⟩, hrange⟩
      rw [hencode, Array.length_toList, Array.size_extract, Nat.min_eq_left hfits]
      simp only
      omega

theorem reads_of_written (hsmall : codeEnd ≤ 2 ^ 29) (hrange : d.instruction.InRange codeEnd)
    (hwritten : d.WrittenAt cells pc) : Reads cells pc codeEnd d := by
  obtain ⟨i, next⟩ := d
  obtain ⟨hnext, hinside, hcells⟩ := hwritten
  simp only at hrange hnext hinside hcells
  rcases Checked.readForm_of_inRange pc hrange with
    ⟨code, rfl⟩ | ⟨op, operands, hencode, hlength, hread⟩
  · obtain rfl : next = pc + 1 := hnext
    rw [toList_extract_cons hinside (Nat.lt_succ_self pc)] at hcells
    obtain rfl : cells[pc] = code := (List.cons.inj hcells).1
    exact .unknown hinside hrange
  · obtain rfl : next = pc + 1 + op.operandCells := by
      rw [hnext, hencode, List.length_cons, hlength]
      omega
    have inside : pc < cells.size := by omega
    rw [hencode, toList_extract_cons inside (by omega)] at hcells
    obtain ⟨hcode, hoperands⟩ := List.cons.inj hcells
    refine .opcode inside ?_ hinside ?_
    · rw [hcode, Opcode.ofCode?_code]
    · rw [← hoperands] at hread
      exact hread hsmall

theorem Decoded.WrittenAt.of_append (h : d.WrittenAt (code ++ beyond) pc)
    (hend : d.next ≤ code.size) : d.WrittenAt code pc := by
  refine ⟨h.next, hend, ?_⟩
  rw [← h.cells, Checked.extract_code hend]

theorem Checked.decodeAt_of_written (hsmall : codeEnd ≤ 2 ^ 29) (hsize : codeEnd ≤ cells.size)
    (hend : d.next ≤ codeEnd) (hrange : d.instruction.InRange codeEnd)
    (hwritten : d.WrittenAt cells pc) :
    Checked.decodeAt cells pc codeEnd = Checked.done (.ok d) := by
  -- the cells of the code area and the cells beyond it
  obtain ⟨code, beyond, rfl, rfl⟩ :
      ∃ code beyond, cells = code ++ beyond ∧ codeEnd = code.size := by
    refine ⟨cells.extract 0 codeEnd, cells.extract codeEnd cells.size, ?_, ?_⟩
    · rw [Array.extract_append_extract, Nat.zero_min, Nat.max_eq_right hsize, Array.extract_size]
    · rw [Array.size_extract, Nat.min_eq_left hsize, Nat.sub_zero]
  obtain ⟨inside, hdecodes⟩ := (reads_of_written hsmall hrange (hwritten.of_append hend)).decodes
  rw [Checked.decodeAt_eq (by omega) inside, hdecodes]

/-- Decoding is the inverse of encoding.  An instruction in range is encoded as its opcode and
operands.  Whatever the decoder of a code area gives is written in the cells from `pc` to the next
instruction, and is in range; whatever is in range and written there is what the decoder gives.  The
same holds of the decoder that is given all cells of an image and the end of the code. -/
theorem decodeAt_inverts_encode :
    (∀ (codeEnd : Nat) (i : Instruction), i.InRange codeEnd → i.LaidOut i.encode) ∧
    (∀ (code : Array Int32) (pc : Nat) (d : Decoded), Decodes code pc d →
      d.WrittenAt code pc ∧ d.instruction.InRange code.size) ∧
    (∀ (code : Array Int32) (pc : Nat) (d : Decoded), code.size ≤ 2 ^ 29 →
      d.instruction.InRange code.size → d.WrittenAt code pc → Decodes code pc d) ∧
    (∀ (cells : Array Int32) (pc codeEnd : Nat) (d : Decoded),
      Checked.decodeAt cells pc codeEnd = Checked.done (.ok d) →
      d.WrittenAt cells pc ∧ d.instruction.InRange codeEnd) ∧
    ∀ (cells : Array Int32) (pc codeEnd : Nat) (d : Decoded), codeEnd ≤ 2 ^ 29 →
      codeEnd ≤ cells.size → d.next ≤ codeEnd → d.instruction.InRange codeEnd →
      d.WrittenAt cells pc → Checked.decodeAt cells pc codeEnd = Checked.done (.ok d) := by
  refine ⟨?layout, ?written, ?decodes, ?written', ?decodes'⟩
  case layout => exact fun _ _ hrange => Instruction.laidOut_encode hrange
  case written => exact fun _ _ _ h => h.reads.written
  case decodes =>
    intro code pc d hsmall hrange hwritten
    exact (reads_of_written hsmall hrange hwritten).decodes
  case written' => exact fun _ _ _ _ h => (Checked.reads_of_decodeAt h).written
  case decodes' =>
    intro cells pc codeEnd d hsmall hsize hend hrange hwritten
    exact Checked.decodeAt_of_written hsmall hsize hend hrange hwritten

/-- A case branch to itself, a special with three arguments, a variable of the world, and two cells
of which the second is not code. -/
def mixedCells : Array Int32 := #[0, 0, 84, -5, 8, 11, 70, 1, 0, -1, 45, 63, 102, 1]

theorem decodeAt_inverts_encode_mixed :
    ((Instruction.caseGoto (-5) 2).InRange 13 ∧ (Instruction.caseGoto (-5) 2).LaidOut [84, -5, 8] ∧
      Decoded.WrittenAt ⟨.caseGoto (-5) 2, 5⟩ mixedCells 2 ∧
      Checked.decodeAt mixedCells 2 13 = Checked.done (.ok ⟨.caseGoto (-5) 2, 5⟩)) ∧
    Decodes mixedCells 5 ⟨.lineSpecialDirect 70 3 #v[1, 0, -1, 0, 0], 10⟩ ∧
    Decoded.WrittenAt ⟨.variable .mod .world 63, 12⟩ mixedCells 10 ∧
    Decoded.WrittenAt ⟨.unknown 102, 13⟩ mixedCells 12 := by
  obtain ⟨hlaid, hwritten, hdecodes, hwritten', hdecodes'⟩ := decodeAt_inverts_encode
  have hcase : (Instruction.caseGoto (-5) 2).InRange 13 := ⟨by decide, by decide⟩
  have hplaced : Decoded.WrittenAt ⟨.caseGoto (-5) 2, 5⟩ mixedCells 2 :=
    ⟨by decide, by decide, by decide⟩
  refine ⟨⟨hcase, hlaid 13 _ hcase, hplaced, ?_⟩, ?_, ?_, ?_⟩
  · exact hdecodes' _ _ _ _ (by decide) (by decide) (by decide) hcase hplaced
  · exact hdecodes _ _ _ (by decide) ⟨by decide, by decide⟩ ⟨by decide, by decide, by decide⟩
  · exact (hwritten _ _ _ ⟨by decide, by cbv⟩).1
  · exact (hwritten' mixedCells 12 13 _ (by cbv)).1

end

end MapScript
