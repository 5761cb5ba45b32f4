import MapScript.Image.Exploration

/-!
# Reachable code

The search through the code area decodes exactly the cells that execution can
come to.  `Reachable` says which cells these are without mentioning the search;
`Exploration.Exact` is the invariant of the search, kept by one look and hence
by the whole run.  The main statement is `decodeReachable_exact`.
-/

namespace MapScript

/-- The cell `pc` of the code area decodes to `d`. -/
def Decodes (code : Array Int32) (pc : Nat) (d : Decoded) : Prop :=
  ∃ inside : pc < code.size, decodeAt code pc inside = .ok d

/-- The cells that execution can come to from the entries: the entries, the cell
after an instruction that falls through, and the target of a branch. -/
inductive Reachable (code : Array Int32) (entries : List Nat) : Nat → Prop
  | entry {pc : Nat} (hpc : pc ∈ entries) : Reachable code entries pc
  | next {pc : Nat} {d : Decoded} (hpc : Reachable code entries pc)
      (hd : Decodes code pc d) (hfalls : d.instruction.fallsThrough = true) :
      Reachable code entries d.next
  | target {pc cell : Nat} {d : Decoded} (hpc : Reachable code entries pc)
      (hd : Decodes code pc d) (htarget : d.instruction.branchTarget? = some cell) :
      Reachable code entries cell

theorem Decodes.unique {code : Array Int32} {pc : Nat} {d d' : Decoded}
    (h : Decodes code pc d) (h' : Decodes code pc d') : d = d' := by
  obtain ⟨inside, hd⟩ := h
  obtain ⟨_, hd'⟩ := h'
  rw [hd] at hd'
  cases hd'
  rfl

theorem Reachable.of_entries {code : Array Int32} {entries entries' : List Nat} {pc : Nat}
    (hsub : ∀ cell ∈ entries, cell ∈ entries') (h : Reachable code entries pc) :
    Reachable code entries' pc := by
  induction h with
  | entry hpc => exact .entry (hsub _ hpc)
  | next _ hd hfalls ih => exact .next ih hd hfalls
  | target _ hd htarget ih => exact .target ih hd htarget

/-! ## Branch targets lie in the code area -/

theorem codeCell_eq_ok {codeEnd : Nat} {offset : Int32} {cell : Nat}
    (h : codeCell codeEnd offset = .ok cell) :
    headerCells ≤ cell ∧ cell < codeEnd ∧ 0 ≤ offset ∧ offset.toInt.toNat = cellSize * cell := by
  unfold codeCell at h
  split at h
  · cases h
  · rename_i hneg
    simp only at h
    split at h
    · cases h
    · rename_i haligned
      split at h
      · rename_i hrange
        cases h
        refine ⟨hrange.1, hrange.2, Int32.not_lt.1 hneg, ?_⟩
        simp only [cellSize] at haligned ⊢
        omega
      · cases h

/-- An instruction of this form branches exactly where the form reads a code
offset, and then to the cell at that offset. -/
def Form.Targeted : Form → Prop
  | .plain instruction => instruction.branchTarget? = none
  | .number make => ∀ value, (make value).branchTarget? = none
  | .numbers make => ∀ first second, (make first second).branchTarget? = none
  | .direct _ | .access _ _ => True
  | .branch make => ∀ cell, (make cell).branchTarget? = some cell
  | .caseBranch make => ∀ value cell, (make value cell).branchTarget? = some cell

theorem Opcode.form_targeted (op : Opcode) : op.form.Targeted := by
  cases op <;> simp [Opcode.form, Form.Targeted, Instruction.branchTarget?]

theorem Form.target_of_read {op : Opcode} {code : Array Int32} {pc cell : Nat} {form : Form}
    {h : pc + form.width < code.size} {instruction : Instruction} (hform : form.Targeted)
    (hread : form.read op code pc h = .ok instruction)
    (htarget : instruction.branchTarget? = some cell) :
    ∃ inside : pc + form.width < code.size,
      codeCell code.size code[pc + form.width] = .ok cell := by
  cases form with
  | plain i =>
      cases hread
      rw [hform] at htarget
      cases htarget
  | number make =>
      cases hread
      rw [hform] at htarget
      cases htarget
  | numbers make =>
      cases hread
      rw [hform] at htarget
      cases htarget
  | direct argc =>
      cases hread
      cases htarget
  | access varOp scope =>
      simp only [Form.read] at hread
      split at hread
      · cases hread
        cases htarget
      · cases hread
  | branch make =>
      simp only [Form.read] at hread
      split at hread
      · rename_i found hcell
        cases hread
        rw [hform found] at htarget
        cases htarget
        exact ⟨h, hcell⟩
      · cases hread
  | caseBranch make =>
      simp only [Form.read] at hread
      split at hread
      · rename_i found hcell
        cases hread
        rw [hform _ found] at htarget
        cases htarget
        exact ⟨h, hcell⟩
      · cases hread

/-- A branch target is the cell whose offset is the last operand. -/
theorem Decodes.target {code : Array Int32} {pc cell : Nat} {d : Decoded}
    (hd : Decodes code pc d) (htarget : d.instruction.branchTarget? = some cell) :
    ∃ inside : d.next - 1 < code.size, codeCell code.size code[d.next - 1] = .ok cell := by
  obtain ⟨inside, hd⟩ := hd
  unfold decodeAt at hd
  split at hd
  · cases hd
    cases htarget
  · rename_i op hop
    split at hd
    · split at hd
      · rename_i hwidth instruction hread
        cases hd
        have hlast := Form.target_of_read op.form_targeted hread htarget
        have hnext : pc + 1 + op.operandCells - 1 = pc + op.form.width := by
          rw [Opcode.operandCells]
          omega
        simpa only [hnext] using hlast
      · cases hd
    · cases hd

theorem Decodes.target_lt {code : Array Int32} {pc cell : Nat} {d : Decoded}
    (hd : Decodes code pc d) (htarget : d.instruction.branchTarget? = some cell) :
    cell < code.size := by
  obtain ⟨_, hcell⟩ := hd.target htarget
  exact (codeCell_eq_ok hcell).2.1

/-! ## Successors -/

theorem Decoded.successors_isOk_iff (d : Decoded) (codeEnd pc : Nat) :
    (∃ cells, d.successors codeEnd pc = .ok cells) ↔
      (d.instruction.fallsThrough = true → d.next < codeEnd) := by
  unfold Decoded.successors
  by_cases hfalls : d.instruction.fallsThrough = true
  · by_cases hnext : d.next < codeEnd <;> simp [hfalls, hnext]
  · simp [hfalls]

theorem Decoded.mem_successors {d : Decoded} {codeEnd pc : Nat} {cells : List Nat}
    (h : d.successors codeEnd pc = .ok cells) (cell : Nat) :
    cell ∈ cells ↔ d.instruction.branchTarget? = some cell ∨
      d.instruction.fallsThrough = true ∧ cell = d.next := by
  unfold Decoded.successors at h
  split at h
  · rename_i hfalls
    split at h
    · cases h
      simp [hfalls]
    · cases h
  · rename_i hfalls
    cases h
    simp [hfalls]

theorem Reachable.successor {code : Array Int32} {entries : List Nat} {pc cell : Nat}
    {d : Decoded} {cells : List Nat} (hpc : Reachable code entries pc) (hd : Decodes code pc d)
    (hcells : d.successors code.size pc = .ok cells) (hcell : cell ∈ cells) :
    Reachable code entries cell ∧ cell < code.size := by
  rcases (Decoded.mem_successors hcells cell).1 hcell with htarget | ⟨hfalls, rfl⟩
  · exact ⟨.target hpc hd htarget, hd.target_lt htarget⟩
  · exact ⟨.next hpc hd hfalls,
      (d.successors_isOk_iff code.size pc).1 ⟨cells, hcells⟩ hfalls⟩

/-! ## The search -/

/-- The cell can be run: it decodes, and falls through only to a cell of the code
area. -/
def Runnable (code : Array Int32) (pc : Nat) : Prop :=
  ∃ d, Decodes code pc d ∧ (d.instruction.fallsThrough = true → d.next < code.size)

namespace Exploration

variable {code : Array Int32}

def slot? (e : Exploration code) (pc : Nat) : Option Decoded := e.slots[pc]?.join

/-- The search has decoded the cell or is going to look at it. -/
def Knows (e : Exploration code) (pc : Nat) : Prop :=
  (e.slot? pc).isSome = true ∨ pc ∈ e.pending

/-- Between two looks, everything found is reachable and decoded as it should be,
and nothing that can be reached in one step has been lost. -/
structure Exact (entries : List Nat) (e : Exploration code) : Prop where
  pending : ∀ pc ∈ e.pending, Reachable code entries pc ∧ pc < code.size
  decoded : ∀ pc d, e.slot? pc = some d → Reachable code entries pc ∧ Decodes code pc d
  closed : ∀ pc d, e.slot? pc = some d →
    ∃ cells, d.successors code.size pc = .ok cells ∧ ∀ cell ∈ cells, e.Knows cell
  entries : ∀ pc ∈ entries, e.Knows pc

theorem slot?_set {e : Exploration code} {pc : Nat} (inside : pc < code.size) (d : Decoded)
    (pending : List Nat) (cell : Nat) :
    slot? ⟨e.slots.set pc (some d), pending⟩ cell =
      if cell = pc then some d else e.slot? cell := by
  simp only [slot?, Vector.getElem?_set]
  by_cases hcell : cell = pc
  · simp [hcell]
  · simp [hcell, Ne.symm hcell]

theorem exact_start {entries : List Nat} (hentries : ∀ pc ∈ entries, pc < code.size) :
    (start code entries).Exact entries := by
  have hslot : ∀ pc, (start code entries).slot? pc = none := by
    intro pc
    simp only [slot?, start, Vector.getElem?_replicate]
    split <;> rfl
  refine ⟨?_, ?_, ?_, ?_⟩
  · intro pc hpc
    have hmem : pc ∈ entries := by simpa [start] using hpc
    exact ⟨.entry hmem, hentries pc hmem⟩
  · intro pc d hd
    rw [hslot] at hd
    cases hd
  · intro pc d hd
    rw [hslot] at hd
    cases hd
  · intro pc hpc
    right
    simpa [start] using hpc

theorem Exact.pass {entries : List Nat} {e : Exploration code} {pc : Nat} {rest : List Nat}
    (he : e.Exact entries) (hp : e.pending = pc :: rest) (hseen : (e.slot? pc).isSome = true) :
    Exact entries { e with pending := rest } := by
  have hknows : ∀ cell, e.Knows cell → Knows { e with pending := rest } cell := by
    rintro cell (hcell | hcell)
    · exact .inl hcell
    · rw [hp, List.mem_cons] at hcell
      rcases hcell with rfl | hcell
      · exact .inl hseen
      · exact .inr hcell
  refine ⟨?_, he.decoded, ?_, fun cell hcell => hknows cell (he.entries cell hcell)⟩
  · intro cell hcell
    apply he.pending
    rw [hp]
    exact List.mem_cons_of_mem pc hcell
  · intro cell d hd
    obtain ⟨cells, hcells, hall⟩ := he.closed cell d hd
    exact ⟨cells, hcells, fun c hc => hknows c (hall c hc)⟩

theorem Exact.decode {entries : List Nat} {e : Exploration code} {pc : Nat} {rest cells : List Nat}
    {d : Decoded} (he : e.Exact entries) (hp : e.pending = pc :: rest) (inside : pc < code.size)
    (hd : decodeAt code pc inside = .ok d) (hcells : d.successors code.size pc = .ok cells) :
    Exact entries { slots := e.slots.set pc (some d), pending := cells ++ rest } := by
  have hreach : Reachable code entries pc := (he.pending pc (by rw [hp]; simp)).1
  have hknows : ∀ cell, e.Knows cell →
      Knows { slots := e.slots.set pc (some d), pending := cells ++ rest } cell := by
    rintro cell (hcell | hcell)
    · left
      rw [slot?_set inside]
      split
      · rfl
      · exact hcell
    · rw [hp, List.mem_cons] at hcell
      rcases hcell with rfl | hcell
      · left
        simp [slot?_set inside]
      · exact .inr (List.mem_append_right cells hcell)
  refine ⟨?_, ?_, ?_, fun cell hcell => hknows cell (he.entries cell hcell)⟩
  · intro cell hcell
    rcases List.mem_append.1 hcell with hcell | hcell
    · exact hreach.successor ⟨inside, hd⟩ hcells hcell
    · apply he.pending
      rw [hp]
      exact List.mem_cons_of_mem pc hcell
  · intro cell d' hd'
    rw [slot?_set inside] at hd'
    split at hd'
    · rename_i heq
      cases hd'
      subst heq
      exact ⟨hreach, inside, hd⟩
    · exact he.decoded cell d' hd'
  · intro cell d' hd'
    rw [slot?_set inside] at hd'
    split at hd'
    · rename_i heq
      cases hd'
      subst heq
      exact ⟨cells, hcells, fun c hc => .inr (List.mem_append_left rest hc)⟩
    · obtain ⟨cells', hcells', hall⟩ := he.closed cell d' hd'
      exact ⟨cells', hcells', fun c hc => hknows c (hall c hc)⟩

/-- One look keeps the invariant, or it has met a reachable cell that cannot be
run. -/
theorem Exact.look {entries : List Nat} {e : Exploration code} {pc : Nat} {rest : List Nat}
    (he : e.Exact entries) (hp : e.pending = pc :: rest) :
    (∃ e', e.look pc rest = .ok e' ∧ e'.Exact entries) ∨
      (∃ cause, e.look pc rest = .error cause) ∧ ¬ Runnable code pc := by
  have inside : pc < code.size := (he.pending pc (by rw [hp]; simp)).2
  have hslot : e.slot? pc = e.slots[pc] := by simp [slot?, inside]
  unfold Exploration.look
  rw [dif_pos inside]
  by_cases hseen : e.slots[pc].isSome = true
  · left
    rw [if_pos hseen]
    exact ⟨_, rfl, he.pass hp (by rw [hslot]; exact hseen)⟩
  · -- a cell met for the first time: the look fails exactly if the cell cannot be run
    rw [if_neg hseen]
    unfold visit
    cases hd : decodeAt code pc inside with
    | error cause =>
        right
        refine ⟨⟨_, rfl⟩, ?_⟩
        rintro ⟨d, ⟨_, hd'⟩, _⟩
        rw [hd] at hd'
        cases hd'
    | ok d =>
        cases hcells : d.successors code.size pc with
        | error cause =>
            right
            simp only [hcells]
            refine ⟨⟨_, rfl⟩, ?_⟩
            rintro ⟨d', hd', hfalls⟩
            rw [Decodes.unique hd' ⟨inside, hd⟩] at hfalls
            obtain ⟨cells, hok⟩ := (d.successors_isOk_iff code.size pc).2 hfalls
            rw [hcells] at hok
            cases hok
        | ok cells =>
            left
            simp only [hcells]
            exact ⟨_, rfl, he.decode hp inside hd hcells⟩

/-- A search that ends well leaves a program with the invariant and nothing
pending; one that fails has met a reachable cell that cannot be run. -/
theorem Exact.run {entries : List Nat} {e : Exploration code} (he : e.Exact entries) :
    (∃ last : Exploration code, e.run = .ok ⟨last.slots.toArray⟩ ∧ last.pending = [] ∧
        last.Exact entries) ∨
      (∃ cause, e.run = .error cause) ∧ ∃ pc, Reachable code entries pc ∧ ¬ Runnable code pc := by
  fun_induction Exploration.run e with
  | case1 e hp => exact .inl ⟨e, rfl, hp, he⟩
  | case2 e pc rest hp cause hlook =>
      rcases he.look hp with ⟨e', hok, _⟩ | ⟨_, hstuck⟩
      · rw [hlook] at hok
        cases hok
      · exact .inr ⟨⟨cause, rfl⟩, pc, (he.pending pc (by rw [hp]; simp)).1, hstuck⟩
  | case3 e pc rest hp e' hlook ih =>
      rcases he.look hp with ⟨e'', hok, hexact⟩ | ⟨⟨cause, herr⟩, _⟩
      · rw [hlook] at hok
        cases hok
        exact ih hexact
      · rw [hlook] at herr
        cases herr

/-- Once nothing is pending, every reachable cell has been decoded. -/
theorem Exact.complete {entries : List Nat} {e : Exploration code} (he : e.Exact entries)
    (hdone : e.pending = []) {pc : Nat} (hpc : Reachable code entries pc) :
    ∃ d, e.slot? pc = some d := by
  have hknown : ∀ cell, e.Knows cell → ∃ d, e.slot? cell = some d := by
    rintro cell (hcell | hcell)
    · exact Option.isSome_iff_exists.1 hcell
    · rw [hdone] at hcell
      cases hcell
  induction hpc with
  | entry hpc => exact hknown _ (he.entries _ hpc)
  | next _ hd hfalls ih =>
      obtain ⟨d', hslot⟩ := ih
      have heq := hd.unique (he.decoded _ _ hslot).2
      subst heq
      obtain ⟨cells, hcells, hall⟩ := he.closed _ _ hslot
      exact hknown _ (hall _ ((Decoded.mem_successors hcells _).2 (.inr ⟨hfalls, rfl⟩)))
  | target _ hd htarget ih =>
      obtain ⟨d', hslot⟩ := ih
      have heq := hd.unique (he.decoded _ _ hslot).2
      subst heq
      obtain ⟨cells, hcells, hall⟩ := he.closed _ _ hslot
      exact hknown _ (hall _ ((Decoded.mem_successors hcells _).2 (.inl htarget)))

end Exploration

/-! ## What the search returns -/

/-- Running an instruction of the program leads to an instruction of the program. -/
structure Program.Closed (p : Program) : Prop where
  next : ∀ pc d, p.fetch pc = some d → d.instruction.fallsThrough = true →
    p.isBoundary d.next = true
  target : ∀ pc d cell, p.fetch pc = some d → d.instruction.branchTarget? = some cell →
    p.isBoundary cell = true

section

variable {code : Array Int32} {entries : List Nat}

/-- The program holds the reachable cells and nothing else, each as it decodes. -/
theorem fetch_decodeReachable {p : Program} (hentries : ∀ pc ∈ entries, pc < code.size)
    (hp : decodeReachable code entries = .ok p) (pc : Nat) (d : Decoded) :
    p.fetch pc = some d ↔ Reachable code entries pc ∧ Decodes code pc d := by
  rcases (Exploration.exact_start hentries).run with ⟨last, hok, hdone, hexact⟩ | ⟨⟨_, herr⟩, _⟩
  · rw [decodeReachable, hok] at hp
    cases hp
    have hfetch : Program.fetch ⟨last.slots.toArray⟩ pc = last.slot? pc := by
      simp [Program.fetch, Exploration.slot?]
    rw [hfetch]
    constructor
    · exact hexact.decoded pc d
    · rintro ⟨hpc, hd⟩
      obtain ⟨d', hslot⟩ := hexact.complete hdone hpc
      rw [hslot, hd.unique (hexact.decoded pc d' hslot).2]
  · rw [decodeReachable, herr] at hp
    cases hp

theorem runnable_of_decodeReachable {p : Program} (hentries : ∀ pc ∈ entries, pc < code.size)
    (hp : decodeReachable code entries = .ok p) {pc : Nat} (hpc : Reachable code entries pc) :
    Runnable code pc := by
  rcases (Exploration.exact_start hentries).run with ⟨last, hok, hdone, hexact⟩ | ⟨⟨_, herr⟩, _⟩
  · obtain ⟨d, hslot⟩ := hexact.complete hdone hpc
    obtain ⟨cells, hcells, _⟩ := hexact.closed pc d hslot
    exact ⟨d, (hexact.decoded pc d hslot).2,
      (d.successors_isOk_iff code.size pc).1 ⟨cells, hcells⟩⟩
  · rw [decodeReachable, herr] at hp
    cases hp

theorem decodeReachable_isOk_iff (hentries : ∀ pc ∈ entries, pc < code.size) :
    (∃ p, decodeReachable code entries = .ok p) ↔
      ∀ pc, Reachable code entries pc → Runnable code pc := by
  constructor
  · rintro ⟨p, hp⟩ pc hpc
    exact runnable_of_decodeReachable hentries hp hpc
  · intro hall
    rcases (Exploration.exact_start hentries).run with ⟨last, hok, _, _⟩ | ⟨_, pc, hpc, hstuck⟩
    · exact ⟨_, hok⟩
    · exact absurd (hall pc hpc) hstuck

theorem isBoundary_decodeReachable {p : Program} (hentries : ∀ pc ∈ entries, pc < code.size)
    (hp : decodeReachable code entries = .ok p) (pc : Nat) :
    p.isBoundary pc = true ↔ Reachable code entries pc := by
  rw [Program.isBoundary, Option.isSome_iff_exists]
  constructor
  · rintro ⟨d, hd⟩
    exact ((fetch_decodeReachable hentries hp pc d).1 hd).1
  · intro hpc
    obtain ⟨d, hd, _⟩ := runnable_of_decodeReachable hentries hp hpc
    exact ⟨d, (fetch_decodeReachable hentries hp pc d).2 ⟨hpc, hd⟩⟩

theorem closed_decodeReachable {p : Program} (hentries : ∀ pc ∈ entries, pc < code.size)
    (hp : decodeReachable code entries = .ok p) : p.Closed := by
  constructor
  · intro pc d hd hfalls
    have h := (fetch_decodeReachable hentries hp pc d).1 hd
    exact (isBoundary_decodeReachable hentries hp d.next).2 (.next h.1 h.2 hfalls)
  · intro pc d cell hd htarget
    have h := (fetch_decodeReachable hentries hp pc d).1 hd
    exact (isBoundary_decodeReachable hentries hp cell).2 (.target h.1 h.2 htarget)

theorem size_decodeReachable {p : Program} (hentries : ∀ pc ∈ entries, pc < code.size)
    (hp : decodeReachable code entries = .ok p) : p.slots.size = code.size := by
  rcases (Exploration.exact_start hentries).run with ⟨last, hok, _, _⟩ | ⟨⟨_, herr⟩, _⟩
  · rw [decodeReachable, hok] at hp
    cases hp
    exact last.slots.size_toArray
  · rw [decodeReachable, herr] at hp
    cases hp

theorem Program.ext_fetch {p q : Program} (hsize : p.slots.size = q.slots.size)
    (hfetch : ∀ pc, p.fetch pc = q.fetch pc) : p = q := by
  cases p with
  | mk left =>
      cases q with
      | mk right =>
          congr 1
          apply Array.ext hsize
          intro pc hl hr
          have h := hfetch pc
          simpa [Program.fetch, hl, hr] using h

theorem decodeReachable_congr {entries' : List Nat} {p : Program}
    (hentries : ∀ pc ∈ entries, pc < code.size) (hsame : ∀ pc, pc ∈ entries' ↔ pc ∈ entries)
    (hp : decodeReachable code entries = .ok p) : decodeReachable code entries' = .ok p := by
  have hentries' : ∀ pc ∈ entries', pc < code.size :=
    fun pc hpc => hentries pc ((hsame pc).1 hpc)
  have hreach : ∀ pc, Reachable code entries' pc ↔ Reachable code entries pc := by
    intro pc
    exact ⟨.of_entries fun cell hcell => (hsame cell).1 hcell,
      .of_entries fun cell hcell => (hsame cell).2 hcell⟩
  obtain ⟨q, hq⟩ := (decodeReachable_isOk_iff hentries').2 fun pc hpc =>
    runnable_of_decodeReachable hentries hp ((hreach pc).1 hpc)
  rw [hq]
  congr 1
  apply Program.ext_fetch
  · rw [size_decodeReachable hentries' hq, size_decodeReachable hentries hp]
  · intro pc
    apply Option.ext
    intro d
    rw [fetch_decodeReachable hentries' hq, fetch_decodeReachable hentries hp, hreach]

/-- The search through the code area is exact.  It ends well exactly when every
reachable cell decodes and none falls off the end of the code area; the program it
gives holds exactly the reachable cells, each as it decodes, so that it is closed
under falling through and branching; and the order of the entries does not matter. -/
theorem decodeReachable_exact (code : Array Int32) (entries : List Nat)
    (hentries : ∀ pc ∈ entries, pc < code.size) :
    ((∃ p, decodeReachable code entries = .ok p) ↔
      (∀ pc, Reachable code entries pc → ∃ d, Decodes code pc d) ∧
      ∀ pc d, Reachable code entries pc → Decodes code pc d →
        d.instruction.fallsThrough = true → d.next < code.size) ∧
    ∀ p, decodeReachable code entries = .ok p →
      (∀ pc d, p.fetch pc = some d ↔ Reachable code entries pc ∧ Decodes code pc d) ∧
      p.Closed ∧
      ∀ entries', (∀ pc, pc ∈ entries' ↔ pc ∈ entries) →
        decodeReachable code entries' = .ok p := by
  refine ⟨?_, fun p hp => ⟨fetch_decodeReachable hentries hp,
    closed_decodeReachable hentries hp, fun entries' hsame =>
      decodeReachable_congr hentries hsame hp⟩⟩
  rw [decodeReachable_isOk_iff hentries]
  constructor
  · intro hall
    refine ⟨fun pc hpc => ?_, fun pc d hpc hd => ?_⟩
    · obtain ⟨d, hd, _⟩ := hall pc hpc
      exact ⟨d, hd⟩
    · obtain ⟨d', hd', hnext⟩ := hall pc hpc
      rw [hd.unique hd']
      exact hnext
  · rintro ⟨hdecodes, hnext⟩ pc hpc
    obtain ⟨d, hd⟩ := hdecodes pc hpc
    exact ⟨d, hd, hnext pc d hpc hd⟩

/-- A branch to itself, and a script that starts in its operand. -/
theorem decodeReachable_exact_overlap :
    (∀ pc ∈ [3, 2, 3], pc < (#[0, 0, 52, 8, 7, 1] : Array Int32).size) ∧
    ∃ p, decodeReachable #[0, 0, 52, 8, 7, 1] [3, 2, 3] = .ok p ∧
      ∀ pc d, p.fetch pc = some d ↔
        Reachable #[0, 0, 52, 8, 7, 1] [3, 2, 3] pc ∧ Decodes #[0, 0, 52, 8, 7, 1] pc d := by
  have hentries : ∀ pc ∈ [3, 2, 3], pc < (#[0, 0, 52, 8, 7, 1] : Array Int32).size := by decide
  have hrun : decodeReachable #[0, 0, 52, 8, 7, 1] [3, 2, 3] =
      .ok ⟨#[none, none, some ⟨.goto 2, 4⟩, some ⟨.lineSpecial 7 5, 5⟩, none,
        some ⟨.terminate, 6⟩]⟩ := by cbv
  exact ⟨hentries, _, hrun, ((decodeReachable_exact _ _ hentries).2 _ hrun).1⟩

end

end MapScript
