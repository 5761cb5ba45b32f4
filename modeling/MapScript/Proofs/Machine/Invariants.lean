import MapScript.Proofs.Machine.Advances

/-!
# Invariants of the instance table

What growing keeps: instances are well-formed and no two carry one number; and,
as long as the handles do not start over, the next handle is above every live
one.
-/

namespace MapScript

variable {image : Image} {limit : UInt32}

theorem ScriptInstance.Evolves.number {i i' : ScriptInstance} (h : i.Evolves image limit i') :
    i'.number = i.number := by
  cases h with
  | idle state delay _ => rfl
  | slice c _ _ => exact number_runSlice image limit { i with state := .running } c

theorem ScriptInstance.Evolves.wellFormed {i i' : ScriptInstance} (himage : image.Sound)
    (h : i.Evolves image limit i') (hi : i.WellFormed image) : i'.WellFormed image := by
  cases h with
  | idle state delay _ => exact hi.of_eq rfl rfl hi.boundary hi.stack
  | slice c _ hend =>
      have hrunning : ScriptInstance.WellFormed image { i with state := .running } :=
        hi.of_eq rfl rfl hi.boundary hi.stack
      exact (runSlice_wellFormed himage limit hrunning).lives (.inr hend)

theorem ScriptInstance.wellFormed_new {definition : Nat} {info : ScriptInfo} (args : SpecialArgs)
    (trigger : Trigger) (delay : UInt32) (himage : image.Sound)
    (hdeclared : image.scripts[definition]? = some info) :
    ScriptInstance.WellFormed image
      { ScriptInstance.new definition info args trigger with delay } := by
  refine ⟨⟨info, hdeclared, rfl⟩, ?_, Nat.zero_le _⟩
  exact himage.entries info (List.mem_of_getElem? hdeclared)

namespace InstanceTable

variable {t t' : InstanceTable}

/-- No script has two live instances. -/
def Distinct (t : InstanceTable) : Prop :=
  ∀ h h' i i', t.get? h = some i → t.get? h' = some i' → i.number = i'.number → h = h'

theorem Distinct.evolve (ht : t.Distinct) (h : t.Evolves image limit t') : t'.Distinct := by
  intro k k' i' j' hi' hj' hnumber
  obtain ⟨i, hi, hevolves⟩ := h.get? k i' hi'
  obtain ⟨j, hj, hevolves'⟩ := h.get? k' j' hj'
  apply ht k k' i j hi hj
  rw [← hevolves.number, ← hevolves'.number]
  exact hnumber

theorem Distinct.insert {i : ScriptInstance} (ht : t.Distinct)
    (hfree : ∀ k j, t.get? k = some j → j.number ≠ i.number) : (t.insert i).Distinct := by
  intro k k' j j' hj hj' hnumber
  rw [get?_insert] at hj hj'
  split at hj <;> split at hj'
  · rename_i hk hk'
    rw [hk, hk']
  · cases hj
    exact absurd hnumber.symm (hfree k' j' hj')
  · cases hj'
    exact absurd hnumber (hfree k j hj)
  · exact ht k k' j j' hj hj' hnumber

theorem Distinct.grow {n : Nat} (ht : t.Distinct) (h : Grows image limit t n t') :
    t'.Distinct := by
  induction h with
  | refl => exact ht
  | evolve _ hevolves ih => exact ih.evolve hevolves
  | insert delay _ _ hfree ih => exact ih.insert hfree

/-- Every live instance is well-formed, and no script has two. -/
structure WellFormed (image : Image) (t : InstanceTable) : Prop where
  instances : ∀ h i, t.get? h = some i → i.WellFormed image
  unique : ∀ h h' i i', t.get? h = some i → t.get? h' = some i' → i.number = i'.number → h = h'

theorem WellFormed.of_get?_eq_none (h : ∀ k, t.get? k = none) : t.WellFormed image := by
  constructor
  · intro k i hi
    rw [h k] at hi
    cases hi
  · intro k k' i i' hi
    rw [h k] at hi
    cases hi

theorem WellFormed.evolve (himage : image.Sound) (ht : t.WellFormed image)
    (h : t.Evolves image limit t') : t'.WellFormed image := by
  constructor
  · intro k i' hi'
    obtain ⟨i, hi, hevolves⟩ := h.get? k i' hi'
    exact hevolves.wellFormed himage (ht.instances k i hi)
  · exact Distinct.evolve ht.unique h

theorem WellFormed.insert {i : ScriptInstance} (ht : t.WellFormed image)
    (hi : i.WellFormed image) (hfree : ∀ k j, t.get? k = some j → j.number ≠ i.number) :
    (t.insert i).WellFormed image := by
  constructor
  · intro k j hj
    rw [get?_insert] at hj
    split at hj
    · cases hj
      exact hi
    · exact ht.instances k j hj
  · exact Distinct.insert ht.unique hfree

theorem WellFormed.grow {n : Nat} (himage : image.Sound) (ht : t.WellFormed image)
    (h : Grows image limit t n t') : t'.WellFormed image := by
  induction h with
  | refl => exact ht
  | evolve _ hevolves ih => exact ih.evolve himage hevolves
  | insert delay _ hdeclared hfree ih =>
      exact ih.insert (ScriptInstance.wellFormed_new _ _ delay himage hdeclared) hfree

/-- The next handle is above every live one. -/
def Fresh (t : InstanceTable) : Prop := ∀ h i, t.get? h = some i → h < t.next

theorem Fresh.lt_of_mem_handles (ht : t.Fresh) {h : UInt32} (hmem : h ∈ t.handles) :
    h < t.next := by
  obtain ⟨i, hi⟩ := (t.mem_handles_iff h).1 hmem
  exact ht h i hi

theorem toNat_next_of_grows {n : Nat} (h : Grows image limit t n t')
    (hcount : t.next.toNat + n < UInt32.size) : t'.next.toNat = t.next.toNat + n := by
  induction h with
  | refl => rfl
  | evolve _ hevolves ih => rw [hevolves.next, ih hcount]
  | insert delay _ _ _ ih =>
      have hbefore := ih (by omega)
      have hone : (1 : UInt32).toNat = 1 := rfl
      rw [next_insert, UInt32.toNat_add, hbefore, hone]
      exact Nat.mod_eq_of_lt hcount

theorem Fresh.grow {n : Nat} (ht : t.Fresh) (h : Grows image limit t n t')
    (hcount : t.next.toNat + n < UInt32.size) : t'.Fresh := by
  induction h with
  | refl => exact ht
  | evolve _ hevolves ih =>
      intro k i' hi'
      obtain ⟨i, hi, _⟩ := hevolves.get? k i' hi'
      rw [hevolves.next]
      exact ih hcount k i hi
  | @insert n t' definition info args trigger delay h hdeclared hfree ih =>
      have hbefore := toNat_next_of_grows h (by omega)
      have hinsert : Grows image limit t (n + 1)
          (t'.insert { ScriptInstance.new definition info args trigger with delay }) :=
        h.insert delay hdeclared hfree
      intro k i hi
      rw [UInt32.lt_iff_toNat_lt, toNat_next_of_grows hinsert hcount]
      rw [get?_insert] at hi
      split at hi
      · rename_i hk
        rw [hk, hbefore]
        omega
      · have hk := UInt32.lt_iff_toNat_lt.1 (ih (by omega) k i hi)
        omega

end InstanceTable

end MapScript
