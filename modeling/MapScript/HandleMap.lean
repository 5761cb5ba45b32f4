/-!
# Handle maps

Values under 32-bit handles, kept in ascending order of their handles, so that two maps with the
same values are equal and walking a map is walking its handles in order.
-/

namespace MapScript

structure HandleMap (α : Type) where
  entries : List (UInt32 × α)
  ascending : entries.Pairwise (fun a b => a.1 < b.1)
deriving Repr

namespace HandleMap

variable {α : Type}

instance [DecidableEq α] : DecidableEq (HandleMap α) := fun a b =>
  if h : a.entries = b.entries then
    isTrue (by cases a; cases b; simp_all)
  else isFalse (fun heq => h (congrArg entries heq))

def empty : HandleMap α := ⟨[], .nil⟩

def isEmpty (m : HandleMap α) : Bool := m.entries.isEmpty

def size (m : HandleMap α) : Nat := m.entries.length

/-- The handles in ascending order. -/
def handles (m : HandleMap α) : List UInt32 := m.entries.map (·.1)

def get? (m : HandleMap α) (h : UInt32) : Option α := m.entries.lookup h

/-- Puts a value under a handle, in the place of one that is there. -/
def insertEntry (h : UInt32) (v : α) : List (UInt32 × α) → List (UInt32 × α)
  | [] => [(h, v)]
  | (k, w) :: rest =>
    if h < k then (h, v) :: (k, w) :: rest
    else if h = k then (h, v) :: rest
    else (k, w) :: insertEntry h v rest

theorem mem_insertEntry {h : UInt32} {v : α} {es : List (UInt32 × α)} {e : UInt32 × α}
    (he : e ∈ insertEntry h v es) : e = (h, v) ∨ e ∈ es := by
  fun_induction insertEntry h v es with
  | case1 => simpa using he
  | case2 k w rest hlt => simpa using he
  | case3 w rest _ =>
    simp only [List.mem_cons] at he ⊢
    exact he.elim .inl (fun h => .inr (.inr h))
  | case4 k w rest _ _ ih =>
    simp only [List.mem_cons] at he ⊢
    rcases he with he | he
    · exact .inr (.inl he)
    · rcases ih he with h | h
      · exact .inl h
      · exact .inr (.inr h)

theorem ascending_insertEntry {h : UInt32} {v : α} {es : List (UInt32 × α)}
    (hes : es.Pairwise (fun a b => a.1 < b.1)) :
    (insertEntry h v es).Pairwise (fun a b => a.1 < b.1) := by
  fun_induction insertEntry h v es with
  | case1 => simp
  | case2 k w rest hlt =>
    rw [List.pairwise_cons] at hes ⊢
    refine ⟨?_, List.pairwise_cons.2 hes⟩
    intro e he
    rcases List.mem_cons.1 he with rfl | he
    · exact hlt
    · exact UInt32.lt_trans hlt (hes.1 e he)
  | case3 w rest _ =>
    rw [List.pairwise_cons] at hes ⊢
    exact hes
  | case4 k w rest hlt hne ih =>
    rw [List.pairwise_cons] at hes ⊢
    refine ⟨?_, ih hes.2⟩
    intro e he
    rcases mem_insertEntry he with rfl | he
    · exact UInt32.lt_of_le_of_ne (UInt32.not_lt.1 hlt) (Ne.symm hne)
    · exact hes.1 e he

def insert (m : HandleMap α) (h : UInt32) (v : α) : HandleMap α :=
  ⟨insertEntry h v m.entries, ascending_insertEntry m.ascending⟩

def erase (m : HandleMap α) (h : UInt32) : HandleMap α :=
  ⟨m.entries.filter (·.1 ≠ h), m.ascending.filter _⟩

/-- Changes every value. -/
def mapValues (f : UInt32 → α → α) (m : HandleMap α) : HandleMap α :=
  ⟨m.entries.map fun (h, v) => (h, f h v), by
    rw [List.pairwise_map]
    exact m.ascending⟩

/-- Changes the value under a handle. -/
def modify (m : HandleMap α) (h : UInt32) (f : α → α) : HandleMap α :=
  m.mapValues fun k v => if k = h then f v else v

/-! ## Looking up -/

@[simp] theorem get?_empty (h : UInt32) : (empty : HandleMap α).get? h = none := rfl

theorem lookup_entry_cons (e : UInt32 × α) (es : List (UInt32 × α)) (k : UInt32) :
    (e :: es).lookup k = if k = e.1 then some e.2 else es.lookup k := by
  rw [List.lookup_cons]
  by_cases hk : k = e.1
  · simp [hk]
  · rw [if_neg hk, beq_eq_false_iff_ne.2 hk]

theorem lookup_insertEntry (h : UInt32) (v : α) (es : List (UInt32 × α)) (k : UInt32) :
    (insertEntry h v es).lookup k = if k = h then some v else es.lookup k := by
  fun_induction insertEntry h v es with
  | case1 => rw [lookup_entry_cons]
  | case2 j w rest hlt => rw [lookup_entry_cons]
  | case3 w rest _ =>
    rw [lookup_entry_cons, lookup_entry_cons]
    by_cases hk : k = h <;> simp [hk]
  | case4 j w rest hlt hne ih =>
    rw [lookup_entry_cons, lookup_entry_cons, ih]
    by_cases hkj : k = j
    · simp [hkj, Ne.symm hne]
    · simp [hkj]

theorem get?_insert (m : HandleMap α) (h k : UInt32) (v : α) :
    (m.insert h v).get? k = if k = h then some v else m.get? k :=
  lookup_insertEntry h v m.entries k

theorem get?_erase (m : HandleMap α) (h k : UInt32) :
    (m.erase h).get? k = if k = h then none else m.get? k := by
  simp only [get?, erase]
  induction m.entries with
  | nil => simp
  | cons e es ih =>
    by_cases he : e.1 = h
    · rw [List.filter_cons_of_neg (by simpa using he), ih, lookup_entry_cons, he]
      by_cases hk : k = h <;> simp [hk]
    · rw [List.filter_cons_of_pos (by simpa using he), lookup_entry_cons, lookup_entry_cons, ih]
      by_cases hke : k = e.1
      · simp [hke, he]
      · simp [hke]

theorem get?_mapValues (f : UInt32 → α → α) (m : HandleMap α) (k : UInt32) :
    (m.mapValues f).get? k = (m.get? k).map (f k) := by
  simp only [get?, mapValues]
  induction m.entries with
  | nil => rfl
  | cons e es ih =>
    rw [List.map_cons, lookup_entry_cons, lookup_entry_cons, ih]
    by_cases hk : k = e.1 <;> simp [hk]

theorem get?_modify (m : HandleMap α) (h k : UInt32) (f : α → α) :
    (m.modify h f).get? k = if k = h then (m.get? k).map f else m.get? k := by
  rw [modify, get?_mapValues]
  by_cases hk : k = h <;> simp [hk]

@[simp] theorem handles_mapValues (f : UInt32 → α → α) (m : HandleMap α) :
    (m.mapValues f).handles = m.handles := by
  simp [handles, mapValues, Function.comp_def]

@[simp] theorem handles_modify (m : HandleMap α) (h : UInt32) (f : α → α) :
    (m.modify h f).handles = m.handles :=
  handles_mapValues _ m

end HandleMap

end MapScript
