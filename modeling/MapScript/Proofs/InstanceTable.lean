import Mathlib.Data.List.Sort
import MapScript.InstanceTable

/-!
# Looking into instance tables

Every table operation said through the look-up `get?`, and what a search by
script number finds.
-/

namespace MapScript

namespace HandleMap

variable {α : Type}

theorem lookup_eq_some_iff {es : List (UInt32 × α)} (hes : es.Pairwise (fun a b => a.1 < b.1))
    (h : UInt32) (v : α) : es.lookup h = some v ↔ (h, v) ∈ es := by
  induction es with
  | nil => simp
  | cons e es ih =>
      rw [List.pairwise_cons] at hes
      rw [lookup_entry_cons, List.mem_cons]
      split
      · rename_i heq
        subst heq
        constructor
        · intro hv
          cases hv
          exact .inl rfl
        · rintro (hv | hv)
          · rw [← hv]
          · exact absurd (hes.1 _ hv) (UInt32.lt_irrefl e.1)
      · rename_i hne
        rw [ih hes.2]
        constructor
        · exact .inr
        · rintro (hv | hv)
          · exact absurd (congrArg Prod.fst hv) hne
          · exact hv

theorem get?_eq_some_iff (m : HandleMap α) (h : UInt32) (v : α) :
    m.get? h = some v ↔ (h, v) ∈ m.entries :=
  lookup_eq_some_iff m.ascending h v

theorem mem_handles_iff (m : HandleMap α) (h : UInt32) :
    h ∈ m.handles ↔ ∃ v, m.get? h = some v := by
  simp only [handles, List.mem_map, get?_eq_some_iff]
  constructor
  · rintro ⟨⟨k, v⟩, hmem, rfl⟩
    exact ⟨v, hmem⟩
  · rintro ⟨v, hmem⟩
    exact ⟨(h, v), hmem, rfl⟩

/-- A map is known by what it holds under each handle. -/
theorem ext_get? {m m' : HandleMap α} (h : ∀ k, m.get? k = m'.get? k) : m = m' := by
  have hanti : Std.Antisymm fun a b : UInt32 × α => a.1 < b.1 :=
    ⟨fun _ _ hab hba => absurd (UInt32.lt_trans hab hba) (UInt32.lt_irrefl _)⟩
  have hirrefl : Std.Irrefl fun a b : UInt32 × α => a.1 < b.1 :=
    ⟨fun a => UInt32.lt_irrefl a.1⟩
  have hentries : m.entries = m'.entries := by
    refine m.ascending.eq_of_mem_iff m'.ascending fun e => ?_
    rw [← m.get?_eq_some_iff e.1 e.2, ← m'.get?_eq_some_iff e.1 e.2, h]
  cases m
  cases m'
  cases hentries
  rfl

/-- A handle above all others goes to the end. -/
theorem entries_insert_of_lt (m : HandleMap α) {h : UInt32} (v : α)
    (hlt : ∀ e ∈ m.entries, e.1 < h) : (m.insert h v).entries = m.entries ++ [(h, v)] := by
  have happend : ∀ es : List (UInt32 × α), (∀ e ∈ es, e.1 < h) →
      insertEntry h v es = es ++ [(h, v)] := by
    intro es hes
    induction es with
    | nil => rfl
    | cons e es ih =>
        have he : e.1 < h := hes e List.mem_cons_self
        rw [insertEntry, if_neg (UInt32.not_lt.2 (UInt32.le_of_lt he)),
          if_neg (UInt32.ne_of_lt he).symm, ih fun e' he' => hes e' (List.mem_cons_of_mem _ he')]
        rfl
  exact happend m.entries hlt

end HandleMap

namespace InstanceTable

variable (t : InstanceTable)

theorem mem_handles_iff (h : UInt32) : h ∈ t.handles ↔ ∃ i, t.get? h = some i :=
  t.records.mem_handles_iff h

theorem not_mem_handles_iff (h : UInt32) : h ∉ t.handles ↔ t.get? h = none := by
  rw [mem_handles_iff, ← Option.isSome_iff_exists, Option.not_isSome_iff_eq_none]

theorem ascending_handles : t.handles.Pairwise (· < ·) :=
  List.pairwise_map.2 t.records.ascending

theorem nodup_handles : t.handles.Nodup :=
  t.ascending_handles.imp UInt32.ne_of_lt

theorem get?_insert (i : ScriptInstance) (k : UInt32) :
    (t.insert i).get? k = if k = t.next then some i else t.get? k :=
  t.records.get?_insert t.next k i

theorem get?_modify (h k : UInt32) (f : ScriptInstance → ScriptInstance) :
    (t.modify h f).get? k = if k = h then (t.get? k).map f else t.get? k :=
  t.records.get?_modify h k f

theorem get?_remove (h k : UInt32) :
    (t.remove h).get? k = if k = h then none else t.get? k :=
  t.records.get?_erase h k

theorem get?_wake (awaited : Awaited) (k : UInt32) :
    (t.wake awaited).get? k = (t.get? k).map fun i =>
      if i.state = .waiting awaited then { i with state := .running } else i :=
  t.records.get?_mapValues _ k

@[simp] theorem next_insert (i : ScriptInstance) : (t.insert i).next = t.next + 1 := rfl

variable {t}

theorem ext_get? {t' : InstanceTable} (hnext : t.next = t'.next)
    (hget : ∀ k, t.get? k = t'.get? k) : t = t' := by
  have hrecords : t.records = t'.records := HandleMap.ext_get? hget
  cases t
  cases t'
  cases hnext
  cases hrecords
  rfl

/-- What a search by number finds is live and carries the number. -/
theorem get?_of_find? {number : Int32} {h : UInt32} {i : ScriptInstance}
    (hfind : t.find? number = some (h, i)) : t.get? h = some i ∧ i.number = number := by
  have hmem := List.mem_of_find?_eq_some hfind
  have hnumber := List.find?_some hfind
  exact ⟨(t.records.get?_eq_some_iff h i).2 hmem, by simpa using hnumber⟩

/-- A search by number fails only where no live instance carries the number. -/
theorem find?_eq_none_iff {number : Int32} :
    t.find? number = none ↔ ∀ h i, t.get? h = some i → i.number ≠ number := by
  simp only [find?, List.find?_eq_none, Prod.forall, decide_eq_true_eq]
  constructor
  · intro hall h i hi
    exact hall h i ((t.records.get?_eq_some_iff h i).1 hi)
  · intro hall h i hi
    exact hall h i ((t.records.get?_eq_some_iff h i).2 hi)

theorem contains_iff {number : Int32} :
    t.contains number = true ↔ ∃ h i, t.get? h = some i ∧ i.number = number := by
  rw [contains, Option.isSome_iff_ne_none, ne_eq, find?_eq_none_iff]
  grind

theorem find?_le {number : Int32} {h : UInt32} {i : ScriptInstance}
    (hfind : t.find? number = some (h, i)) {k : UInt32} {j : ScriptInstance}
    (hj : t.get? k = some j) (hnumber : j.number = number) : h ≤ k := by
  obtain ⟨_, before, behind, hentries, hbefore⟩ := List.find?_eq_some_iff_append.1 hfind
  have hmem := (t.records.get?_eq_some_iff k j).1 hj
  have hascending := t.records.ascending
  rw [hentries, List.mem_append, List.mem_cons] at hmem
  rw [hentries, List.pairwise_append, List.pairwise_cons] at hascending
  rcases hmem with hmem | heq | hmem
  · exact absurd (hbefore _ hmem) (by simp [hnumber])
  · cases heq
    exact UInt32.le_refl _
  · exact UInt32.le_of_lt (hascending.2.1.1 _ hmem)

/-- A search by number finds the first handle that carries the number. -/
theorem findHandle?_eq_some_iff {number : Int32} {h : UInt32} :
    t.findHandle? number = some h ↔ (∃ i, t.get? h = some i ∧ i.number = number) ∧
      ∀ k j, t.get? k = some j → j.number = number → h ≤ k := by
  rw [findHandle?, Option.map_eq_some_iff]
  constructor
  · rintro ⟨⟨h, i⟩, hfind, rfl⟩
    exact ⟨⟨i, get?_of_find? hfind⟩, fun k j => find?_le hfind⟩
  · rintro ⟨⟨i, hi, hnumber⟩, hfirst⟩
    cases hfind : t.find? number with
    | none => exact absurd hnumber (find?_eq_none_iff.1 hfind h i hi)
    | some found =>
        obtain ⟨hget, hfound⟩ := get?_of_find? hfind
        refine ⟨found, rfl, UInt32.le_antisymm (find?_le hfind hi hnumber) ?_⟩
        exact hfirst found.1 found.2 hget hfound

theorem findHandle?_eq_none_iff {number : Int32} :
    t.findHandle? number = none ↔ t.find? number = none := by
  rw [findHandle?, Option.map_eq_none_iff]

/-- Only the numbers under the handles matter to a search. -/
theorem findHandle?_congr {t' : InstanceTable} {number : Int32}
    (h : ∀ k, (t.get? k).map (·.number) = (t'.get? k).map (·.number)) :
    t.findHandle? number = t'.findHandle? number := by
  have hcarries : ∀ k, (∃ i, t.get? k = some i ∧ i.number = number) ↔
      ∃ i, t'.get? k = some i ∧ i.number = number := by
    intro k
    rw [← Option.map_eq_some_iff, ← Option.map_eq_some_iff, h k]
  apply Option.ext
  intro k
  rw [findHandle?_eq_some_iff, findHandle?_eq_some_iff, hcarries]
  refine and_congr_right fun _ => forall_congr' fun k' => ?_
  have hk' := hcarries k'
  grind

/-- Below the counter, a fresh instance does not change which handle is the first of a number. -/
theorem findHandle?_insert (i : ScriptInstance) {k : UInt32} (hk : k < t.next) (number : Int32) :
    (t.insert i).findHandle? number = some k ↔ t.findHandle? number = some k := by
  have hget : ∀ k', k' ≠ t.next → (t.insert i).get? k' = t.get? k' := by
    intro k' hk'
    rw [get?_insert, if_neg hk']
  rw [findHandle?_eq_some_iff, findHandle?_eq_some_iff, hget k (UInt32.ne_of_lt hk)]
  refine and_congr_right fun _ => forall_congr' fun k' => ?_
  by_cases hk' : k' = t.next
  · have hle : k ≤ k' := by
      rw [hk']
      exact UInt32.le_of_lt hk
    exact ⟨fun _ _ _ _ => hle, fun _ _ _ _ => hle⟩
  · rw [hget k' hk']

/-- Setting the state an instance is in changes nothing. -/
theorem setState_self {h : UInt32} {i : ScriptInstance} (hi : t.get? h = some i) :
    t.setState h i.state = t := by
  refine ext_get? rfl fun k => ?_
  rw [setState, get?_modify]
  split
  · rename_i hk
    rw [hk, hi, Option.map_some]
  · rfl

end InstanceTable

end MapScript
