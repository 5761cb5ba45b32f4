import MapScript.Proofs.Image.Tables

/-!
# Instructions written out in cells

From the cells of a code area to the instruction that the program of an image holds: an opcode and
operands that stand at an instruction are that instruction.
-/

namespace MapScript

/-- The cell that names a variable instruction.  The opcodes go through the operations in order, and
for each operation through the scopes. -/
def VarOp.code (op : VarOp) (scope : VarScope) : Int32 :=
  Int32.ofNat (Opcode.assignScriptVar.toNat + 3 * op.ctorIdx + scope.ctorIdx)

theorem VarOp.exists_opcode (op : VarOp) (scope : VarScope) :
    ∃ opcode : Opcode, opcode.code = op.code scope ∧ opcode.form = .access op scope := by
  refine ⟨(Opcode.ofCode? (op.code scope)).getD .nop, ?_⟩
  cases op <;> cases scope <;> exact ⟨rfl, rfl⟩

/-- The instruction that operands make, for the forms without code offsets. -/
inductive Form.Makes : Form → List Int32 → Instruction → Prop
  | plain (instruction : Instruction) : Makes (.plain instruction) [] instruction
  | number (make : Int32 → Instruction) (value : Int32) :
      Makes (.number make) [value] (make value)
  | numbers (make : Int32 → Int32 → Instruction) (first second : Int32) :
      Makes (.numbers make) [first, second] (make first second)
  | direct (argc : Fin 6) (special : Int32) (args : List Int32) (hargs : args.length = argc) :
      Makes (.direct argc) (special :: args)
        (.lineSpecialDirect special argc (SpecialArgs.ofList args))
  | access (op : VarOp) (scope : VarScope) (index : Nat) (hindex : index < scope.capacity) :
      Makes (.access op scope) [Int32.ofNat index] (.variable op scope index)

section

variable {code : Array Int32} {pc : Nat} {form : Form} {operands : List Int32}
  {instruction : Instruction}

theorem VarScope.capacity_le (scope : VarScope) : scope.capacity ≤ 64 := by
  cases scope <;> decide

/-- The number of a variable fits in a cell. -/
theorem VarScope.index_back {scope : VarScope} {index : Nat} (h : index < scope.capacity) :
    0 ≤ Int32.ofNat index ∧ (Int32.ofNat index).toInt.toNat = index := by
  have hsmall := scope.capacity_le
  have hvalue : (Int32.ofNat index).toInt = index := Int32.toInt_ofNat_of_lt (by omega)
  rw [Int32.le_iff_toInt_le, hvalue, Int.toNat_natCast]
  exact ⟨Int.natCast_nonneg index, rfl⟩

theorem Form.Makes.length_eq (h : form.Makes operands instruction) :
    operands.length = form.width := by
  cases h with
  | direct argc special args hargs => exact congrArg (· + 1) hargs
  | _ => rfl

theorem getElem?_of_cells {cells : List Int32} (h : cells <+: code.toList.drop pc) {k : Nat}
    {value : Int32} (hk : cells[k]? = some value) : code[pc + k]? = some value := by
  obtain ⟨rest, hrest⟩ := h
  have hlt : k < cells.length := (List.getElem?_eq_some_iff.1 hk).1
  rw [← Array.getElem?_toList, ← List.getElem?_drop, ← hrest, List.getElem?_append_left hlt, hk]

theorem Form.read_of_makes (op : Opcode) (hmakes : form.Makes operands instruction)
    (hcells : ∀ (k : Nat) value, operands[k]? = some value → code[pc + 1 + k]? = some value)
    (h : pc + form.width < code.size) : form.read op code pc h = .ok instruction := by
  have hcell : ∀ k value (inside : pc + 1 + k < code.size), operands[k]? = some value →
      code[pc + 1 + k] = value := by
    intro k value inside hk
    have := hcells k value hk
    rw [Array.getElem?_eq_getElem inside] at this
    exact Option.some.inj this
  cases hmakes with
  | plain => rfl
  | number make value => exact congrArg (fun x => Except.ok (make x)) (hcell 0 value h rfl)
  | numbers make first second =>
      have hfirst := hcell 0 first (Nat.lt_of_succ_lt h) rfl
      have hsecond := hcell 1 second h rfl
      simp only [Nat.add_zero] at hfirst
      simp only [Form.read, hfirst]
      exact congrArg (fun x => Except.ok (make first x)) hsecond
  | direct argc special args hargs =>
      have hwidth : pc + (argc + 1) < code.size := h
      have hspecial := hcell 0 special (by omega) rfl
      simp only [Nat.add_zero] at hspecial
      have hofFn : (List.ofFn fun i : Fin argc => code[pc + 2 + i]) = args := by
        refine List.ext_getElem (by rw [List.length_ofFn, hargs]) fun k hk hk' => ?_
        rw [List.getElem_ofFn]
        have hplace : pc + 1 + (k + 1) = pc + 2 + k := by omega
        have := hcells (k + 1) args[k] (by rw [List.getElem?_cons_succ, List.getElem?_eq_getElem])
        rw [hplace, Array.getElem?_eq_getElem (by omega)] at this
        exact Option.some.inj this
      simp only [Form.read, hspecial, hofFn]
  | access varOp scope index hindex =>
      obtain ⟨hnonneg, hvalue⟩ := VarScope.index_back hindex
      have hcellIndex := hcell 0 (Int32.ofNat index) h rfl
      simp only [Nat.add_zero] at hcellIndex
      simp only [Form.read, hcellIndex, hvalue]
      rw [if_pos ⟨hnonneg, hindex⟩]

/-- An opcode and its operands decode to what the operands make. -/
theorem decodes_of_cells {op : Opcode} (hcells : op.code :: operands <+: code.toList.drop pc)
    (hmakes : op.form.Makes operands instruction) :
    Decodes code pc ⟨instruction, pc + 1 + operands.length⟩ := by
  have hop : code[pc]? = some op.code := getElem?_of_cells hcells (k := 0) rfl
  have hoperands : ∀ (k : Nat) value, operands[k]? = some value →
      code[pc + 1 + k]? = some value := by
    intro k value hk
    rw [Nat.add_assoc, Nat.add_comm 1 k]
    exact getElem?_of_cells hcells (by rw [List.getElem?_cons_succ, hk])
  have hlength : pc + op.operandCells < code.size := by
    have := hcells.length_le
    rw [List.length_cons, hmakes.length_eq, List.length_drop, Array.length_toList] at this
    rw [Opcode.operandCells]
    omega
  obtain ⟨inside, hcode⟩ := Array.getElem?_eq_some_iff.1 hop
  refine ⟨inside, ?_⟩
  rw [decodeAt, hcode, Opcode.ofCode?_code]
  simp only
  rw [dif_pos hlength, Form.read_of_makes op hmakes hoperands hlength, hmakes.length_eq]
  rfl

end

namespace Image

variable {bytes : List UInt8} {image : Image} {pc : Nat}

/-- Wherever an instruction of the image starts, it is the one that the code area decodes to. -/
theorem fetch_of_decodes (hparse : parse bytes = .ok image)
    (hpc : image.program.isBoundary pc = true) {d : Decoded}
    (hd : Decodes (codeArea bytes) pc d) : image.program.fetch pc = some d := by
  obtain ⟨found, hfound⟩ := Option.isSome_iff_exists.1 hpc
  have hdecodes : Decodes (codeArea bytes) pc found := by
    by_cases hlen : bytes.length < headerSize
    · rw [parse, if_pos hlen] at hparse
      cases hparse
      simp [Image.empty, Program.empty, Program.fetch] at hfound
    · obtain ⟨count, table, strings, hholds⟩ := (parse_eq_ok_iff (by omega)).1 hparse
      have hentries := entry_lt_of_readScripts hholds.scripts
      exact ((fetch_decodeReachable hentries hholds.program pc found).1 hfound).2
  rw [hfound, hdecodes.unique hd]

/-- An opcode and operands at the start of an instruction are that instruction. -/
theorem fetch_of_cells (hparse : parse bytes = .ok image)
    (hpc : image.program.isBoundary pc = true) {op : Opcode} {operands : List Int32}
    {instruction : Instruction} (hcells : op.code :: operands <+: (codeArea bytes).toList.drop pc)
    (hmakes : op.form.Makes operands instruction) :
    image.program.fetch pc = some ⟨instruction, pc + 1 + operands.length⟩ :=
  fetch_of_decodes hparse hpc (decodes_of_cells hcells hmakes)

end Image

end MapScript
