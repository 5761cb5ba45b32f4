import MapScript.Proofs.Image.Reachability

/-!
# Decoding with every access checked

Here the decoder and the search are written with accesses that can miss: an index or a range outside
its array, a copy between lengths that differ, a size that does not fit in a machine word, an opcode
that no branch decodes, a search that goes on for too long.  Each of these is a slip, an outcome
apart from the errors a caller is told about.  The cells are all those of the image, the ones behind
the code area too.

* `Checked.decodeAt_eq`: inside the code area decoding does not slip and gives what `decodeAt`
  gives.
* `Checked.decodeReachable_eq`: the search does not slip and gives what `decodeReachable` gives.
-/

namespace MapScript

/-- What only a broken decoder does. -/
inductive Slip where
  | index (i size : Nat)
  | range (start stop size : Nat)
  | lengths (target source : Nat)
  | overflow
  | noDecoder (op : Opcode) (pc : Nat)
  | endless
deriving DecidableEq, Repr

/-- A computation that can fail with an error, and can slip. -/
abbrev Checked (ε α : Type) := ExceptT ε (Except Slip) α

namespace Checked

variable {ε ε' α β : Type}

def slip (s : Slip) : Checked ε α := ExceptT.mk (.error s)

/-- Without a slip. -/
def done (r : Except ε α) : Checked ε α := ExceptT.mk (.ok r)

/-! ## Accesses -/

/-- Sizes and positions are below this number. -/
def sizeLimit : Nat := 18446744073709551616

def index (xs : Array α) (i : Nat) : Checked ε α :=
  match xs[i]? with
  | some x => pure x
  | none => slip (.index i xs.size)

def range (xs : Array α) (start stop : Nat) : Checked ε (Array α) :=
  if start ≤ stop ∧ stop ≤ xs.size then pure (xs.extract start stop)
  else slip (.range start stop xs.size)

def put (xs : Array α) (i : Nat) (x : α) : Checked ε (Array α) :=
  if h : i < xs.size then pure (xs.set i x) else slip (.index i xs.size)

/-- Copies all of `source` over the first `count` places of `target`. -/
def copy (target : Array α) (count : Nat) (source : Array α) : Checked ε (Array α) := do
  let places ← range target 0 count
  if places.size = source.size then return source ++ target.extract count
  else slip (.lengths places.size source.size)

def add (a b : Nat) : Checked ε Nat := if a + b < sizeLimit then pure (a + b) else slip .overflow

def sub (a b : Nat) : Checked ε Nat := if b ≤ a then pure (a - b) else slip .overflow

theorem done_bind (r : Except ε α) (f : α → Checked ε β) :
    (done r >>= f) = match r with
      | .ok a => f a
      | .error e => done (.error e) := by
  cases r <;> rfl

/-- Two computations agree when each goes on from an equal first result in the same way. -/
theorem done_bind_eq {r : Except ε α} {f : α → Checked ε β} {g : α → Except ε β}
    (h : ∀ a, r = .ok a → f a = done (g a)) : (done r >>= f) = done (r >>= g) := by
  cases r with
  | error e => rfl
  | ok a => exact h a rfl

theorem adapt_done (f : ε → ε') (r : Except ε α) :
    ExceptT.adapt f (done r) = done (r.mapError f) := rfl

theorem done_mapError_bind (f : ε → ε') (r : Except ε α) (k : α → Checked ε' β) :
    (done (r.mapError f) >>= k) = match r with
      | .ok a => k a
      | .error e => done (.error (f e)) := by
  cases r <;> rfl

theorem index_eq {xs : Array α} {i : Nat} (h : i < xs.size) :
    (index xs i : Checked ε α) = pure xs[i] := by
  rw [index, Array.getElem?_eq_getElem h]

theorem range_eq {xs : Array α} {start stop : Nat} (h : start ≤ stop) (h' : stop ≤ xs.size) :
    (range xs start stop : Checked ε (Array α)) = pure (xs.extract start stop) :=
  if_pos ⟨h, h'⟩

theorem put_eq {xs : Array α} {i : Nat} (h : i < xs.size) (x : α) :
    (put xs i x : Checked ε (Array α)) = pure (xs.set i x) :=
  dif_pos h

theorem copy_eq {target source : Array α} {count : Nat} (h : count ≤ target.size)
    (hsource : source.size = count) :
    (copy target count source : Checked ε (Array α)) = pure (source ++ target.extract count) := by
  have hsize : (target.extract 0 count).size = source.size := by
    rw [Array.size_extract]
    omega
  rw [copy, range_eq (Nat.zero_le count) h, pure_bind, if_pos hsize]

theorem add_eq {a b : Nat} (h : a + b < sizeLimit) : (add a b : Checked ε Nat) = pure (a + b) :=
  if_pos h

/-! ## Tables of opcodes -/

/-- How many cells follow an opcode. -/
def operandCells : Opcode → Nat
  | .pushNumber | .lSpec1 | .lSpec2 | .lSpec3 | .lSpec4 | .lSpec5 => 1
  | .lSpec1Direct => 2
  | .lSpec2Direct => 3
  | .lSpec3Direct => 4
  | .lSpec4Direct => 5
  | .lSpec5Direct => 6
  | .assignScriptVar | .assignMapVar | .assignWorldVar | .pushScriptVar | .pushMapVar
  | .pushWorldVar | .addScriptVar | .addMapVar | .addWorldVar | .subScriptVar | .subMapVar
  | .subWorldVar | .mulScriptVar | .mulMapVar | .mulWorldVar | .divScriptVar | .divMapVar
  | .divWorldVar | .modScriptVar | .modMapVar | .modWorldVar | .incScriptVar | .incMapVar
  | .incWorldVar | .decScriptVar | .decMapVar | .decWorldVar => 1
  | .goto | .ifGoto | .ifNotGoto => 1
  | .delayDirect | .tagWaitDirect | .polyWaitDirect | .scriptWaitDirect => 1
  | .randomDirect | .thingCountDirect | .changeFloorDirect | .changeCeilingDirect
  | .caseGoto => 2
  | _ => 0

/-- The instructions without operands. -/
def simple? : Opcode → Option Instruction
  | .nop => some .nop
  | .terminate => some .terminate
  | .suspend => some .suspend
  | .add => some (.binary .add)
  | .subtract => some (.binary .subtract)
  | .multiply => some (.binary .multiply)
  | .divide => some (.binary .divide)
  | .modulus => some (.binary .modulus)
  | .eq => some (.binary .eq)
  | .ne => some (.binary .ne)
  | .lt => some (.binary .lt)
  | .gt => some (.binary .gt)
  | .le => some (.binary .le)
  | .ge => some (.binary .ge)
  | .andLogical => some (.binary .andLogical)
  | .orLogical => some (.binary .orLogical)
  | .andBitwise => some (.binary .andBitwise)
  | .orBitwise => some (.binary .orBitwise)
  | .eorBitwise => some (.binary .eorBitwise)
  | .lShift => some (.binary .lShift)
  | .rShift => some (.binary .rShift)
  | .negateLogical => some (.unary .negateLogical)
  | .unaryMinus => some (.unary .minus)
  | .drop => some .drop
  | .delay => some .delay
  | .random => some .random
  | .thingCount => some .thingCount
  | .tagWait => some .tagWait
  | .polyWait => some .polyWait
  | .scriptWait => some .scriptWait
  | .changeFloor => some (.changeFlat .floor)
  | .changeCeiling => some (.changeFlat .ceiling)
  | .restart => some .restart
  | .lineSide => some .lineSide
  | .clearLineSpecial => some .clearLineSpecial
  | .beginPrint => some .beginPrint
  | .endPrint => some .endPrint
  | .endPrintBold => some .endPrintBold
  | .printString => some .printString
  | .printNumber => some .printNumber
  | .printCharacter => some .printCharacter
  | .playerCount => some .playerCount
  | .gameType => some .gameType
  | .gameSkill => some .gameSkill
  | .timer => some .timer
  | .sectorSound => some .sectorSound
  | .ambientSound => some .ambientSound
  | .soundSequence => some .soundSequence
  | .thingSound => some .thingSound
  | .setLineTexture => some .setLineTexture
  | .setLineBlocking => some .setLineBlocking
  | .setLineSpecial => some .setLineSpecial
  | _ => none

/-- The variable instructions stand in a row, three scopes to each operation. -/
def variableAccess? (op : Opcode) : Option (VarOp × VarScope) :=
  if Opcode.assignScriptVar.toNat ≤ op.toNat ∧ op.toNat ≤ Opcode.decWorldVar.toNat then
    let place := op.toNat - Opcode.assignScriptVar.toNat
    let varOp : VarOp := match place / 3 with
      | 0 => .assign
      | 1 => .push
      | 2 => .add
      | 3 => .sub
      | 4 => .mul
      | 5 => .div
      | 6 => .mod
      | 7 => .inc
      | _ => .dec
    let scope : VarScope := match place % 3 with
      | 0 => .script
      | 1 => .map
      | _ => .world
    some (varOp, scope)
  else none

def branchTo (op : Opcode) (target : Nat) (value : Int32) : Instruction :=
  match op with
  | .goto => .goto target
  | .ifGoto => .ifGoto target
  | .ifNotGoto => .ifNotGoto target
  | _ => .caseGoto value target

/-! ## Decoding -/

def readVariable (op : Opcode) (varOp : VarOp) (scope : VarScope) (operands : Array Int32)
    (pc : Nat) : Checked DecodeError Instruction := do
  let number ← index operands 0
  if 0 ≤ number ∧ number.toInt.toNat < scope.capacity then
    return .variable varOp scope number.toInt.toNat
  else throw (.noVariable op pc scope (← index operands 0))

def readTarget (op : Opcode) (pc codeEnd : Nat) (offset : Int32) : Checked DecodeError Nat :=
  done ((codeCell codeEnd offset).mapError (.badTarget op pc))

/-- The opcodes that are neither simple nor about a variable. -/
def readOperands (op : Opcode) (operands : Array Int32) (width pc codeEnd : Nat) :
    Checked DecodeError Instruction := do
  match op with
  | .pushNumber => return .pushNumber (← index operands 0)
  | .lSpec1 | .lSpec2 | .lSpec3 | .lSpec4 | .lSpec5 =>
    return .lineSpecial (← index operands 0) (← add (← sub op.toNat Opcode.lSpec1.toNat) 1)
  | .lSpec1Direct | .lSpec2Direct | .lSpec3Direct | .lSpec4Direct | .lSpec5Direct =>
    let argc ← sub width 1
    let args ← copy (Array.replicate specialArgCount 0) argc (← range operands 1 operands.size)
    return .lineSpecialDirect (← index operands 0) argc (SpecialArgs.ofList args.toList)
  | .goto | .ifGoto | .ifNotGoto =>
    return branchTo op (← readTarget op pc codeEnd (← index operands 0)) 0
  | .caseGoto =>
    return branchTo op (← readTarget op pc codeEnd (← index operands 1)) (← index operands 0)
  | .delayDirect => return .delayDirect (← index operands 0)
  | .randomDirect => return .randomDirect (← index operands 0) (← index operands 1)
  | .thingCountDirect => return .thingCountDirect (← index operands 0) (← index operands 1)
  | .tagWaitDirect => return .tagWaitDirect (← index operands 0)
  | .polyWaitDirect => return .polyWaitDirect (← index operands 0)
  | .scriptWaitDirect => return .scriptWaitDirect (← index operands 0)
  | .changeFloorDirect | .changeCeilingDirect =>
    let surface := if op = .changeFloorDirect then Surface.floor else Surface.ceiling
    return .changeFlatDirect surface (← index operands 0) (← index operands 1)
  | other => slip (.noDecoder other pc)

def readInstruction (op : Opcode) (operands : Array Int32) (width pc codeEnd : Nat) :
    Checked DecodeError Instruction :=
  match simple? op with
  | some instruction => pure instruction
  | none =>
    match variableAccess? op with
    | some (varOp, scope) => readVariable op varOp scope operands pc
    | none => readOperands op operands width pc codeEnd

/-- Decodes the cell at `pc`, with the code area ending before `codeEnd`. -/
def decodeAt (cells : Array Int32) (pc codeEnd : Nat) : Checked DecodeError Decoded := do
  let cell ← index cells pc
  match Opcode.ofCode? cell with
  | none => return { instruction := .unknown cell, next := ← add pc 1 }
  | some op =>
    let width := operandCells op
    if (← add pc width) < codeEnd then
      let operands ← range cells (← add pc 1) (← add (← add pc 1) width)
      let next ← add (← add pc 1) width
      return { instruction := ← readInstruction op operands width pc codeEnd, next }
    else throw (.truncated op pc)

/-- Goes on with a search that has `fuel` more cells to look at. -/
def search (cells : Array Int32) (codeEnd : Nat) :
    Nat → Array (Option Decoded) → List Nat → Checked CodeError Program
  | _, slots, [] => pure ⟨slots⟩
  | 0, _, _ :: _ => slip .endless
  | fuel + 1, slots, pc :: rest => do
    if (← index slots pc).isSome then search cells codeEnd fuel slots rest
    else
      let d ← ExceptT.adapt .decode (decodeAt cells pc codeEnd)
      let pending ←
        if d.instruction.fallsThrough then
          if d.next < codeEnd then pure (d.next :: rest) else throw (.fallsOff pc)
        else pure rest
      search cells codeEnd fuel (← put slots pc (some d))
        (d.instruction.branchTarget?.toList ++ pending)

/-- Decodes what can be reached from the entries. A cell that is decoded leaves at most two more to
look at. -/
def decodeReachable (cells : Array Int32) (codeEnd : Nat) (entries : List Nat) :
    Checked CodeError Program :=
  search cells codeEnd (entries.length + 2 * codeEnd) (Array.replicate codeEnd none)
    entries.reverse

/-! ## Decoding does not slip -/

theorem operandCells_eq (op : Opcode) : operandCells op = op.operandCells := by
  cases op <;> rfl

/-- What the form of an opcode reads from its operands. -/
def readForm (op : Opcode) (operands : Array Int32) (pc codeEnd : Nat) :
    Form → Checked DecodeError Instruction
  | .plain instruction => pure instruction
  | .number make => do return make (← index operands 0)
  | .numbers make => do return make (← index operands 0) (← index operands 1)
  | .direct argc => do
    let args ← copy (Array.replicate specialArgCount 0) argc (← range operands 1 operands.size)
    return .lineSpecialDirect (← index operands 0) argc (SpecialArgs.ofList args.toList)
  | .access varOp scope => readVariable op varOp scope operands pc
  | .branch make => do return make (← readTarget op pc codeEnd (← index operands 0))
  | .caseBranch make => do
    let target ← readTarget op pc codeEnd (← index operands 1)
    return make (← index operands 0) target

/-- The three tables agree with the form: each opcode has a branch, and only one. -/
theorem readInstruction_eq (op : Opcode) (operands : Array Int32) (pc codeEnd : Nat) :
    readInstruction op operands (operandCells op) pc codeEnd =
      readForm op operands pc codeEnd op.form := by
  cases op <;> rfl

section

variable {code beyond : Array Int32} {pc : Nat}

theorem index_operand {start stop k : Nat} (hstop : start + k < stop) (h : start + k < code.size) :
    (index (code.extract start stop) k : Checked ε Int32) = pure code[start + k] := by
  have hk : k < (code.extract start stop).size := by
    rw [Array.size_extract]
    omega
  rw [index_eq hk, Array.getElem_extract]

theorem ofList_pad (args : List Int32) (n : Nat) :
    SpecialArgs.ofList (args ++ List.replicate n 0) = SpecialArgs.ofList args := by
  have hpad : ∀ i, (args ++ List.replicate n 0).getD i 0 = args.getD i 0 := by
    intro i
    simp only [List.getD_eq_getElem?_getD, List.getElem?_append, List.getElem?_replicate]
    by_cases hi : i < args.length
    · rw [if_pos hi]
    · rw [if_neg hi, List.getElem?_eq_none (by omega)]
      split <;> rfl
  simp only [SpecialArgs.ofList, hpad]

theorem readForm_eq (op : Opcode) (form : Form) (h : pc + form.width < code.size) :
    readForm op (code.extract (pc + 1) (pc + 1 + form.width)) pc code.size form =
      done (form.read op code pc h) := by
  cases form with
  | plain instruction => rfl
  | number make =>
      simp only [Form.width] at h
      simp only [readForm, Form.width]
      rw [index_operand (by omega) (by omega), pure_bind]
      rfl
  | numbers make =>
      simp only [Form.width] at h
      simp only [readForm, Form.width]
      rw [index_operand (by omega) (by omega), pure_bind, index_operand (by omega) (by omega),
        pure_bind]
      rfl
  | direct argc =>
      simp only [Form.width] at h
      have hargc : (argc : Nat) ≤ (Array.replicate specialArgCount (0 : Int32)).size := by
        rw [Array.size_replicate, specialArgCount]
        omega
      have hargs : (code.extract (pc + 1) (pc + 1 + (argc + 1))).extract 1
          (code.extract (pc + 1) (pc + 1 + (argc + 1))).size =
            Array.ofFn fun i : Fin argc => code[pc + 2 + i] := by
        apply Array.ext
        · simp only [Array.size_extract, Array.size_ofFn]
          omega
        · intro i hi hi'
          simp only [Array.getElem_extract, Array.getElem_ofFn]
          congr 1
          omega
      have hone : 1 ≤ (code.extract (pc + 1) (pc + 1 + (argc + 1))).size := by
        rw [Array.size_extract]
        omega
      simp only [readForm, Form.width]
      rw [range_eq hone (Nat.le_refl _), pure_bind, hargs, copy_eq hargc Array.size_ofFn, pure_bind,
        index_operand (by omega) (by omega), pure_bind, Array.extract_replicate,
        Array.toList_append, Array.toList_replicate, ofList_pad, Array.toList_ofFn]
      rfl
  | access varOp scope =>
      simp only [Form.width] at h
      simp only [readForm, readVariable, Form.width, Form.read]
      rw [index_operand (by omega) (by omega), pure_bind, pure_bind]
      split <;> rfl
  | branch make =>
      simp only [Form.width] at h
      simp only [readForm, readTarget, Form.width, Form.read]
      rw [index_operand (by omega) (by omega), pure_bind, done_mapError_bind]
      cases codeCell code.size code[pc + 1] with
      | ok target => rfl
      | error cause => rfl
  | caseBranch make =>
      simp only [Form.width] at h
      simp only [readForm, readTarget, Form.width, Form.read]
      rw [index_operand (by omega) (by omega), pure_bind, done_mapError_bind]
      cases codeCell code.size code[pc + 2] with
      | ok target =>
          simp only
          rw [index_operand (by omega) (by omega), pure_bind]
          rfl
      | error cause => rfl

theorem operandCells_le (op : Opcode) : op.operandCells ≤ 6 := by
  cases op <;> decide

theorem extract_code {start stop : Nat} (h : stop ≤ code.size) :
    (code ++ beyond).extract start stop = code.extract start stop := by
  have hbeyond : beyond.extract (start - code.size) (stop - code.size) = #[] :=
    Array.extract_empty_of_stop_le_start (by omega)
  rw [Array.extract_append, hbeyond, Array.append_empty]

theorem decodeAt_eq (hsmall : code.size < 4294967296) (inside : pc < code.size) :
    decodeAt (code ++ beyond) pc code.size = done (MapScript.decodeAt code pc inside) := by
  have hsize : code.size ≤ (code ++ beyond).size := by
    rw [Array.size_append]
    omega
  have hadd : ∀ k ≤ 7, pc + k < sizeLimit := by
    intro k hk
    rw [sizeLimit]
    omega
  rw [decodeAt, index_eq (by omega), pure_bind, Array.getElem_append_left inside,
    MapScript.decodeAt]
  cases Opcode.ofCode? code[pc] with
  | none =>
      simp only
      rw [add_eq (hadd 1 (by omega))]
      rfl
  | some op =>
      have hwidth := operandCells_le op
      have hnext : pc + 1 + op.operandCells < sizeLimit := by
        rw [Nat.add_assoc]
        exact hadd _ (by omega)
      simp only [operandCells_eq, add_eq (hadd 1 (by omega)),
        add_eq (hadd op.operandCells (by omega)), add_eq hnext, pure_bind]
      by_cases h : pc + op.operandCells < code.size
      · have hread := readInstruction_eq op (code.extract (pc + 1) (pc + 1 + op.operandCells)) pc
          code.size
        rw [operandCells_eq] at hread
        rw [if_pos h, dif_pos h, range_eq (by omega) (by omega), pure_bind,
          extract_code (by omega), hread]
        have hform := readForm_eq op op.form h
        simp only [Opcode.operandCells]
        rw [hform, done_bind]
        cases Form.read op code pc op.form h with
        | ok instruction => rfl
        | error e => rfl
      · rw [if_neg h, dif_neg h]
        rfl

/-! ## The search does not slip -/

theorem search_nil (cells : Array Int32) (codeEnd fuel : Nat) (slots : Array (Option Decoded)) :
    search cells codeEnd fuel slots [] = pure ⟨slots⟩ := by
  cases fuel <;> rfl

/-- One step of the search is one look of the exploration, at a cell of the code area. -/
theorem search_cons (hsmall : code.size < 4294967296) {e : Exploration code} {rest : List Nat}
    (inside : pc < code.size) (fuel : Nat) :
    search (code ++ beyond) code.size (fuel + 1) e.slots.toArray (pc :: rest) =
      match e.look pc rest with
      | .ok e' => search (code ++ beyond) code.size fuel e'.slots.toArray e'.pending
      | .error cause => done (.error cause) := by
  have hslots : pc < e.slots.toArray.size := by
    rw [Vector.size_toArray]
    exact inside
  rw [search, index_eq hslots, pure_bind, Vector.getElem_toArray, Exploration.look, dif_pos inside]
  by_cases hseen : e.slots[pc].isSome = true
  · rw [if_pos hseen, if_pos hseen]
  · rw [if_neg hseen, if_neg hseen, decodeAt_eq hsmall inside, adapt_done,
      done_mapError_bind, Exploration.visit]
    cases MapScript.decodeAt code pc inside with
    | error cause => rfl
    | ok d =>
        simp only [Decoded.successors, put_eq hslots, pure_bind]
        by_cases hfalls : d.instruction.fallsThrough = true
        · rw [if_pos hfalls, if_pos hfalls]
          by_cases hnext : d.next < code.size
          · rw [if_pos hnext, if_pos hnext]
            simp only [List.append_assoc, List.singleton_append, Vector.toArray_set]
          · rw [if_neg hnext, if_neg hnext]
            rfl
        · rw [if_neg hfalls, if_neg hfalls]
          simp only [Vector.toArray_set]

theorem search_eq (hsmall : code.size < 4294967296) {entries : List Nat} {e : Exploration code}
    (he : e.Exact entries) {fuel : Nat} (hfuel : e.measure ≤ fuel) :
    search (code ++ beyond) code.size fuel e.slots.toArray e.pending = done e.run := by
  -- the fuel is at least the measure, which a look makes smaller
  have hpositive : ∀ {e : Exploration code} {pc : Nat} {rest : List Nat},
      e.pending = pc :: rest → 0 < e.measure := by
    intro e pc rest hp
    rw [Exploration.measure, hp, List.length_cons]
    omega
  fun_induction Exploration.run e generalizing fuel with
  | case1 e hp =>
      rw [hp, search_nil]
      rfl
  | case2 e pc rest hp cause hlook =>
      have inside := (he.pending pc (by rw [hp]; exact List.mem_cons_self)).2
      have hmeasure := hpositive hp
      obtain ⟨n, rfl⟩ : ∃ n, fuel = n + 1 := ⟨fuel - 1, by omega⟩
      rw [hp, search_cons hsmall inside, hlook]
  | case3 e pc rest hp e' hlook ih =>
      have inside := (he.pending pc (by rw [hp]; exact List.mem_cons_self)).2
      have hless := Exploration.measure_look hp hlook
      obtain ⟨n, rfl⟩ : ∃ n, fuel = n + 1 := ⟨fuel - 1, by omega⟩
      rw [hp, search_cons hsmall inside, hlook]
      rcases he.look hp with ⟨e'', hok, hexact⟩ | ⟨⟨cause, herror⟩, _⟩
      · rw [hlook] at hok
        cases hok
        exact ih hexact (by omega)
      · rw [hlook] at herror
        cases herror

theorem decodeReachable_eq (hsmall : code.size < 4294967296) {entries : List Nat}
    (hentries : ∀ pc ∈ entries, pc < code.size) :
    decodeReachable (code ++ beyond) code.size entries =
      done (MapScript.decodeReachable code entries) := by
  have hsearch := @search_eq code beyond hsmall entries _ (Exploration.exact_start hentries) _
    (Nat.le_of_eq (Exploration.measure_start entries))
  rwa [Exploration.start, Vector.toArray_replicate] at hsearch

end

end Checked

end MapScript
