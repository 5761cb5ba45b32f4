import Mathlib.Data.List.Induction
import MapScript.Image.Assembly

/-!
# Drafts of images

What a sequence of calls leaves in a draft.  The cells, scripts and strings that the
calls put into an image are functions of the calls, and the tables of the draft hold
just these: the code with the places of labels left blank, the scripts with the number
of cells before them, the strings in the order of their first use.  Filling in the
labels changes the places of labels and no other cells.
-/

namespace MapScript.Draft

/-- A call that adds to a draft. -/
inductive Call where
  | script (number argCount : Int32)
  | string (text : String)
  | emit (cell : Int32)
  | op (op : Opcode) (operands : List Int32)
  | label
  | bind (label : Nat)
  | branch (op : Opcode) (label : Nat)
  | caseBranch (value : Int32) (label : Nat)
deriving DecidableEq, Repr

def call (d : Draft) : Call → Draft
  | .script number argCount => d.script number argCount
  | .string text => (d.string text).2
  | .emit cell => d.emit cell
  | .op op operands => d.op op operands
  | .label => d.label.2
  | .bind label => d.bind label
  | .branch op label => d.branch op label
  | .caseBranch value label => d.caseBranch value label

/-- The draft that a sequence of calls makes. -/
def of (calls : List Call) : Draft := calls.foldl call empty

theorem of_concat (calls : List Call) (c : Call) : of (calls ++ [c]) = (of calls).call c := by
  rw [of, List.foldl_append]
  rfl

/-! ## What calls put into an image -/

/-- A cell as a call emits it: a number, or the place for the offset of a label. -/
inductive Cell where
  | plain (value : Int32)
  | place (label : Nat)
deriving DecidableEq, Repr

/-- The cells that a call emits. -/
def Call.cells : Call → List Cell
  | .emit cell => [.plain cell]
  | .op opcode operands => .plain opcode.code :: operands.map .plain
  | .branch opcode goal => [.plain opcode.code, .place goal]
  | .caseBranch value goal => [.plain Opcode.caseGoto.code, .plain value, .place goal]
  | _ => []

/-- The cells that calls emit. -/
def emitted (calls : List Call) : List Cell := calls.flatMap Call.cells

/-- The script that a call declares behind a number of cells. -/
def Call.script? (cells : Nat) : Call → Option DraftScript
  | .script number argCount => some ⟨number, cells, argCount⟩
  | _ => none

/-- The scripts that calls declare behind a number of cells. -/
def declaredFrom (cells : Nat) : List Call → List DraftScript
  | [] => []
  | c :: calls => (c.script? cells).toList ++ declaredFrom (cells + c.cells.length) calls

/-- The scripts that calls declare, each with the number of cells emitted before it. -/
def declared (calls : List Call) : List DraftScript := declaredFrom 0 calls

/-- The text that a call asks for. -/
def Call.text? : Call → Option String
  | .string text => some text
  | _ => none

/-- The texts that calls ask for, each where it was asked for first. -/
def interned (calls : List Call) : List String := (calls.filterMap Call.text?).eraseDups

/-- The label is made and then bound. -/
def Bound (calls : List Call) (label : Nat) : Prop :=
  ∃ before rest, calls = before ++ .bind label :: rest ∧ label < before.count .label

theorem emitted_append (calls rest : List Call) :
    emitted (calls ++ rest) = emitted calls ++ emitted rest :=
  List.flatMap_append

theorem emitted_concat (calls : List Call) (c : Call) :
    emitted (calls ++ [c]) = emitted calls ++ c.cells := by
  rw [emitted_append]
  simp only [emitted, List.flatMap_cons, List.flatMap_nil, List.append_nil]

theorem declaredFrom_concat (cells : Nat) (calls : List Call) (c : Call) :
    declaredFrom cells (calls ++ [c]) =
      declaredFrom cells calls ++ (c.script? (cells + (emitted calls).length)).toList := by
  induction calls generalizing cells with
  | nil =>
      simp only [List.nil_append, declaredFrom, emitted, List.flatMap_nil, List.length_nil,
        Nat.add_zero, List.append_nil]
  | cons first calls ih =>
      rw [List.cons_append, declaredFrom, ih, declaredFrom, List.append_assoc]
      simp only [emitted, List.flatMap_cons, List.length_append, Nat.add_assoc]

theorem interned_concat (calls : List Call) (c : Call) : interned (calls ++ [c]) =
    interned calls ++ c.text?.toList.filter (· ∉ interned calls) := by
  have hlast : [c].filterMap Call.text? = c.text?.toList := by
    cases htext : c.text? with
    | none => simp [htext]
    | some text => simp [htext]
  rw [interned, interned, List.filterMap_append, List.eraseDups_append, hlast]
  generalize calls.filterMap Call.text? = texts
  cases c.text? with
  | none => rfl
  | some text =>
      by_cases hmem : text ∈ texts
      · simp [List.removeAll, hmem]
      · simp [List.removeAll, hmem, List.eraseDups_cons]

theorem interned_prefix_append (calls rest : List Call) :
    interned calls <+: interned (calls ++ rest) := by
  rw [interned, interned, List.filterMap_append, List.eraseDups_append]
  exact List.prefix_append _ _

/-! ## Places of labels -/

/-- The places of labels among cells that start at `k`, each with its label. -/
def placesFrom (k : Nat) : List Cell → List (Nat × Nat)
  | [] => []
  | .plain _ :: cells => placesFrom (k + 1) cells
  | .place label :: cells => (k, label) :: placesFrom (k + 1) cells

theorem placesFrom_plain (k : Nat) (values : List Int32) :
    placesFrom k (values.map .plain) = [] := by
  induction values generalizing k with
  | nil => rfl
  | cons value values ih => exact ih (k + 1)

theorem placesFrom_append (k : Nat) (cells rest : List Cell) :
    placesFrom k (cells ++ rest) = placesFrom k cells ++ placesFrom (k + cells.length) rest := by
  induction cells generalizing k with
  | nil => rfl
  | cons cell cells ih =>
      have hnext : k + 1 + cells.length = k + (cells.length + 1) := by omega
      cases cell with
      | plain value =>
          rw [List.cons_append, placesFrom, ih, hnext]
          rfl
      | place label =>
          rw [List.cons_append, placesFrom, ih, hnext]
          rfl

theorem mem_placesFrom {k : Nat} {cells : List Cell} {cell label : Nat} :
    (cell, label) ∈ placesFrom k cells ↔ ∃ j, cell = k + j ∧ cells[j]? = some (.place label) := by
  induction cells generalizing k with
  | nil => simp [placesFrom]
  | cons first cells ih =>
      have htail : (cell, label) ∈ placesFrom (k + 1) cells ↔
          ∃ j, cell = k + (j + 1) ∧ (first :: cells)[j + 1]? = some (.place label) := by
        simp only [ih, Nat.add_assoc, Nat.add_comm 1, List.getElem?_cons_succ]
      cases first with
      | plain value =>
          rw [placesFrom, htail]
          constructor
          · rintro ⟨j, hcell, hj⟩
            exact ⟨j + 1, hcell, hj⟩
          · rintro ⟨_ | j, hcell, hj⟩
            · cases hj
            · exact ⟨j, hcell, hj⟩
      | place other =>
          rw [placesFrom, List.mem_cons, htail]
          constructor
          · rintro (heq | ⟨j, hcell, hj⟩)
            · cases heq
              exact ⟨0, rfl, rfl⟩
            · exact ⟨j + 1, hcell, hj⟩
          · rintro ⟨_ | j, hcell, hj⟩
            · cases hj
              exact .inl (congrArg (·, label) hcell)
            · exact .inr ⟨j, hcell, hj⟩

theorem pairwise_placesFrom (k : Nat) (cells : List Cell) :
    (placesFrom k cells).Pairwise fun a b => a.1 ≠ b.1 := by
  induction cells generalizing k with
  | nil => exact List.Pairwise.nil
  | cons cell cells ih =>
      cases cell with
      | plain value => exact ih (k + 1)
      | place label =>
          refine List.pairwise_cons.2 ⟨?_, ih (k + 1)⟩
          rintro ⟨later, _⟩ hlater
          obtain ⟨j, rfl, _⟩ := mem_placesFrom.1 hlater
          simp only
          omega

/-! ## The tables of a draft -/

theorem op_eq (d : Draft) (op : Opcode) (operands : List Int32) :
    d.op op operands = { d with code := d.code.push op.code ++ operands.toArray } := by
  have hcells : ∀ (cells : List Int32) (d : Draft),
      cells.foldl emit d = { d with code := d.code ++ cells.toArray } := by
    intro cells
    induction cells with
    | nil => simp
    | cons cell cells ih =>
        intro d
        rw [List.foldl_cons, ih]
        simp [emit]
  exact hcells operands (d.emit op.code)

theorem string_eq (d : Draft) (text : String) : (d.string text).2 =
    { d with strings := if text ∈ d.strings then d.strings else d.strings.push text } := by
  unfold string
  split
  · rename_i index hindex
    obtain ⟨hlt, htext, _⟩ := Array.findIdx?_eq_some_iff_getElem.1 hindex
    have hmem : text ∈ d.strings := by
      rw [← of_decide_eq_true htext]
      exact Array.getElem_mem hlt
    rw [if_pos hmem]
  · rename_i hnone
    have hmem : text ∉ d.strings := by
      intro hmem
      exact of_decide_eq_false (Array.findIdx?_eq_none_iff.1 hnone text hmem) rfl
    rw [if_neg hmem]

/-- The cell before the labels are filled in. -/
def Cell.blank : Cell → Int32
  | .plain value => value
  | .place _ => 0

/-- What a call does to a draft, its labels apart. -/
theorem call_eq (d : Draft) (c : Call) : d.call c =
    { code := d.code ++ (c.cells.map Cell.blank).toArray
      scripts := d.scripts ++ (c.script? d.code.size).toList.toArray
      strings := d.strings ++ (c.text?.toList.filter (· ∉ d.strings)).toArray
      labels := (d.call c).labels
      fixups := d.fixups ++ (placesFrom d.code.size c.cells).toArray } := by
  cases c with
  | script number argCount => simp [call, script, Call.cells, Call.script?, Call.text?, placesFrom]
  | string text =>
      rw [call, string_eq]
      by_cases hmem : text ∈ d.strings
      · simp [Call.cells, Call.script?, Call.text?, placesFrom, hmem]
      · simp [Call.cells, Call.script?, Call.text?, placesFrom, hmem]
  | emit cell =>
      simp [call, emit, Call.cells, Cell.blank, Call.script?, Call.text?, placesFrom]
  | op opcode operands =>
      rw [call, op_eq]
      simp [Call.cells, Cell.blank, Call.script?, Call.text?, placesFrom, placesFrom_plain,
        Function.comp_def]
  | label => simp [call, Draft.label, Call.cells, Call.script?, Call.text?, placesFrom]
  | bind label => simp [call, Draft.bind, Call.cells, Call.script?, Call.text?, placesFrom]
  | branch opcode label =>
      have hcells : (d.code.push opcode.code).push 0 = d.code ++ #[opcode.code, 0] := rfl
      simp [call, branch, reference, emit, Call.cells, Cell.blank, Call.script?, Call.text?,
        placesFrom, hcells]
  | caseBranch value label =>
      have hcells : ((d.code.push Opcode.caseGoto.code).push value).push 0 =
          d.code ++ #[Opcode.caseGoto.code, value, 0] := rfl
      rw [call, caseBranch, op_eq]
      simp [reference, emit, Call.cells, Cell.blank, Call.script?, Call.text?, placesFrom, hcells]

/-- The code of the draft is what the calls emitted. -/
theorem code_of (calls : List Call) :
    (of calls).code.toList = (emitted calls).map Cell.blank := by
  induction calls using List.reverseRecOn with
  | nil => rfl
  | append_singleton calls c ih =>
      rw [of_concat, call_eq, emitted_concat, List.map_append, ← ih]
      exact Array.toList_append

theorem size_code_of (calls : List Call) : (of calls).code.size = (emitted calls).length := by
  rw [← Array.length_toList, code_of, List.length_map]

/-- The draft declares the scripts that the calls did, at the cells they stood before. -/
theorem scripts_of (calls : List Call) : (of calls).scripts.toList = declared calls := by
  induction calls using List.reverseRecOn with
  | nil => rfl
  | append_singleton calls c ih =>
      rw [declared] at ih
      rw [of_concat, call_eq, declared, declaredFrom_concat, ← ih, size_code_of, Nat.zero_add]
      exact Array.toList_append

/-- The draft keeps the texts that were asked for, in the order of their first use. -/
theorem strings_of (calls : List Call) : (of calls).strings.toList = interned calls := by
  induction calls using List.reverseRecOn with
  | nil => rfl
  | append_singleton calls c ih =>
      rw [of_concat, call_eq, interned_concat, ← ih]
      simp only [Array.toList_append, Array.mem_toList_iff]

/-- The open branches of the draft are the places of labels among what the calls emitted. -/
theorem fixups_of (calls : List Call) :
    (of calls).fixups.toList = placesFrom 0 (emitted calls) := by
  induction calls using List.reverseRecOn with
  | nil => rfl
  | append_singleton calls c ih =>
      rw [of_concat, call_eq, emitted_concat, placesFrom_append, ← ih, size_code_of, Nat.zero_add]
      exact Array.toList_append

theorem labels_call (d : Draft) (c : Call) :
    (d.call c).labels.size = d.labels.size + [c].count .label := by
  cases c with
  | string text =>
      rw [call, string_eq]
      rfl
  | op op operands =>
      rw [call, op_eq]
      rfl
  | label => exact Array.size_push _
  | bind label => exact Array.size_setIfInBounds
  | _ => rfl

/-- The labels are numbered in the order in which they are made. -/
theorem labels_of (calls : List Call) : (of calls).labels.size = calls.count .label := by
  induction calls using List.reverseRecOn with
  | nil => rfl
  | append_singleton calls c ih => rw [of_concat, labels_call, ih, List.count_append]

/-- Every open branch stands at a cell of its own. -/
structure Tidy (d : Draft) : Prop where
  inside : ∀ use ∈ d.fixups, use.1 < d.code.size
  apart : d.fixups.toList.Pairwise (fun a b => a.1 ≠ b.1)

theorem mem_fixups_of {calls : List Call} {use : Nat × Nat} :
    use ∈ (of calls).fixups ↔ (emitted calls)[use.1]? = some (.place use.2) := by
  obtain ⟨cell, label⟩ := use
  rw [← Array.mem_toList_iff, fixups_of, mem_placesFrom]
  simp only [Nat.zero_add, exists_eq_left']

theorem tidy_of (calls : List Call) : (of calls).Tidy := by
  refine ⟨?_, ?_⟩
  · intro use huse
    rw [size_code_of]
    exact (List.getElem?_eq_some_iff.1 (mem_fixups_of.1 huse)).1
  · rw [fixups_of]
    exact pairwise_placesFrom 0 (emitted calls)

/-! ## Filling in the labels -/

/-- The code is that of the draft with the open branches filled in. -/
structure Resolves (d : Draft) (code : Array Int32) : Prop where
  size : code.size = d.code.size
  kept : ∀ k, (∀ use ∈ d.fixups, use.1 ≠ k) → code[k]? = d.code[k]?
  filled : ∀ k label target, (k, label) ∈ d.fixups → d.target? label = some target →
    code[k]? = some (cellOffset target).toInt32

/-- One branch after the other: the cells named so far hold their offsets, and
the others are as they were. -/
theorem fill_list {d : Draft} (uses : List (Nat × Nat)) (code : Array Int32)
    (hbound : ∀ use ∈ uses, (d.target? use.2).isSome = true)
    (hapart : uses.Pairwise (fun a b => a.1 ≠ b.1)) (hinside : ∀ use ∈ uses, use.1 < code.size) :
    ∃ code', uses.foldlM d.fill code = .ok code' ∧ code'.size = code.size ∧
      (∀ k, (∀ use ∈ uses, use.1 ≠ k) → code'[k]? = code[k]?) ∧
      ∀ k label target, (k, label) ∈ uses → d.target? label = some target →
        code'[k]? = some (cellOffset target).toInt32 := by
  induction uses generalizing code with
  | nil => exact ⟨code, rfl, rfl, fun _ _ => rfl, nofun⟩
  | cons use uses ih =>
      obtain ⟨cell, label⟩ := use
      rw [List.forall_mem_cons] at hbound hinside
      rw [List.pairwise_cons] at hapart
      obtain ⟨target, htarget⟩ := Option.isSome_iff_exists.1 hbound.1
      have hfill : d.fill code (cell, label) =
          .ok (code.setIfInBounds cell (cellOffset target).toInt32) := by
        simp only [fill, htarget]
      obtain ⟨code', hrest, hsize, hkept, hfilled⟩ :=
        ih (code.setIfInBounds cell (cellOffset target).toInt32) hbound.2 hapart.2
          (by simpa using hinside.2)
      refine ⟨code', ?_, ?_, ?_, ?_⟩
      · rw [List.foldlM_cons, hfill]
        exact hrest
      · rw [hsize, Array.size_setIfInBounds]
      · intro k hk
        rw [List.forall_mem_cons] at hk
        rw [hkept k hk.2, Array.getElem?_setIfInBounds_ne hk.1]
      · intro k label' target' hmem htarget'
        rcases List.mem_cons.1 hmem with heq | hmem
        · cases heq
          rw [htarget] at htarget'
          cases htarget'
          -- no later branch stands at this cell
          rw [hkept cell fun use huse => (hapart.1 use huse).symm,
            Array.getElem?_setIfInBounds_self_of_lt hinside.1]
        · exact hfilled k label' target' hmem htarget'

theorem resolve_of_tidy {d : Draft} (h : d.Tidy)
    (hbound : ∀ use ∈ d.fixups, (d.target? use.2).isSome = true) :
    ∃ code, d.resolve = .ok code ∧ d.Resolves code := by
  obtain ⟨code, hok, hsize, hkept, hfilled⟩ := fill_list d.fixups.toList d.code
    (fun use huse => hbound use (Array.mem_toList_iff.1 huse)) h.apart
    (fun use huse => h.inside use (Array.mem_toList_iff.1 huse))
  refine ⟨code, ?_, hsize, ?_, ?_⟩
  · rw [resolve, ← Array.foldlM_toList]
    exact hok
  · exact fun k hk => hkept k fun use huse => hk use (Array.mem_toList_iff.1 huse)
  · exact fun k label target hmem => hfilled k label target (Array.mem_toList_iff.2 hmem)

/-! ## Strings -/

theorem getElem?_string (d : Draft) (text : String) :
    (d.string text).2.strings[(d.string text).1]? = some text := by
  unfold string
  split
  · rename_i index hindex
    obtain ⟨hlt, htext, _⟩ := Array.findIdx?_eq_some_iff_getElem.1 hindex
    simp only
    rw [Array.getElem?_eq_getElem hlt, of_decide_eq_true htext]
  · simp

/-- The index given for a string stays its place among the texts to the end. -/
theorem getElem?_interned (before rest : List Call) (text : String) :
    (interned (before ++ .string text :: rest))[((of before).string text).1]? = some text := by
  have hhere : (interned (before ++ [.string text]))[((of before).string text).1]? = some text := by
    rw [← strings_of, of_concat, Array.getElem?_toList]
    exact getElem?_string (of before) text
  obtain ⟨later, hlater⟩ := interned_prefix_append (before ++ [.string text]) rest
  rw [List.append_cons, ← hlater,
    List.getElem?_append_left (List.getElem?_eq_some_iff.1 hhere).1, hhere]

/-! ## Labels -/

theorem target?_bind (d : Draft) (label other : Nat) : (d.bind label).target? other =
    if label = other ∧ label < d.labels.size then some d.code.size else d.target? other := by
  simp only [target?, bind, Array.getElem?_setIfInBounds]
  by_cases heq : label = other
  · subst heq
    by_cases hlt : label < d.labels.size
    · simp [hlt]
    · simp [hlt]
  · simp [heq]

/-- Only a binding moves a label. -/
theorem target?_call (d : Draft) (label : Nat) {c : Call} (hc : c ≠ .bind label) :
    (d.call c).target? label = d.target? label := by
  cases c with
  | string text =>
      rw [call, string_eq]
      rfl
  | op op operands =>
      rw [call, op_eq]
      rfl
  | label =>
      simp only [call, Draft.label, target?, Array.getElem?_push]
      split
      · rename_i heq
        rw [heq, Array.getElem?_eq_none (Nat.le_refl _)]
        rfl
      · rfl
  | bind other =>
      rw [call, target?_bind, if_neg]
      rintro ⟨rfl, _⟩
      exact hc rfl
  | _ => rfl

/-- A label stands where it was bound last. -/
theorem target?_of {calls : List Call} {label cell : Nat}
    (h : (of calls).target? label = some cell) :
    ∃ before rest, calls = before ++ .bind label :: rest ∧ .bind label ∉ rest ∧
      cell = (emitted before).length := by
  induction calls using List.reverseRecOn with
  | nil => cases h
  | append_singleton calls c ih =>
      rw [of_concat] at h
      by_cases hc : c = .bind label
      · subst hc
        rw [call, target?_bind] at h
        split at h
        · cases h
          exact ⟨calls, [], rfl, List.not_mem_nil, size_code_of calls⟩
        · rename_i hout
          -- a binding that does nothing: the label was not made, so it is bound nowhere
          rw [target?, Array.getElem?_eq_none (by omega)] at h
          cases h
      · rw [target?_call _ _ hc] at h
        obtain ⟨before, rest, rfl, hlast, hcell⟩ := ih h
        refine ⟨before, rest ++ [c], by simp, ?_, hcell⟩
        intro hmem
        rcases List.mem_append.1 hmem with hmem | hmem
        · exact hlast hmem
        · exact hc (List.mem_singleton.1 hmem).symm

theorem isSome_target?_call {d : Draft} {label : Nat} (h : (d.target? label).isSome = true)
    (c : Call) : ((d.call c).target? label).isSome = true := by
  by_cases hc : c = .bind label
  · subst hc
    rw [call, target?_bind]
    split
    · rfl
    · exact h
  · rw [target?_call _ _ hc]
    exact h

/-- A label that was made and bound keeps a cell, whatever is called later. -/
theorem isSome_target?_of {calls : List Call} {label : Nat} (h : Bound calls label) :
    ((of calls).target? label).isSome = true := by
  obtain ⟨before, rest, rfl, hmade⟩ := h
  rw [← labels_of] at hmade
  induction rest using List.reverseRecOn with
  | nil =>
      rw [of_concat, call, target?_bind, if_pos ⟨rfl, hmade⟩]
      rfl
  | append_singleton rest c ih =>
      rw [← List.cons_append, ← List.append_assoc, of_concat]
      exact isSome_target?_call ih c

end MapScript.Draft
