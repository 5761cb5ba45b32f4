import Mathlib.Data.List.Pairwise
import MapScript.Machine.Snapshot
import MapScript.Proofs.Image.Tables
import MapScript.Proofs.Machine.Invariants

/-!
# What a restore accepts

A snapshot is taken back exactly when its instances are well-formed on the image
and its next handle is above every live one.
-/

namespace MapScript.Machine

theorem checkInstance_eq_ok_iff {image : Image} {seen : List Int32} {h : UInt32}
    {i : ScriptInstance} :
    checkInstance image seen h i = .ok () ↔ i.number ∉ seen ∧ i.WellFormed image := by
  unfold checkInstance
  constructor
  · intro hok
    split at hok
    · cases hok
    · rename_i hseen
      split at hok
      · cases hok
      · rename_i info hinfo
        split at hok
        · cases hok
        · rename_i hnumber
          split at hok
          · cases hok
          · rename_i hboundary
            split at hok
            · cases hok
            · rename_i hfits
              refine ⟨by simpa using hseen, ⟨info, hinfo, not_not.1 hnumber⟩,
                not_not.1 hboundary, ?_⟩
              simpa [OperandStack.fits] using hfits
  · rintro ⟨hseen, ⟨info, hinfo, hnumber⟩, hboundary, hstack⟩
    rw [if_neg (by simpa using hseen), hinfo]
    simp only
    rw [if_neg (not_not.2 hnumber), if_neg (not_not.2 hboundary), if_neg]
    simpa [OperandStack.fits] using hstack

theorem checkInstances_eq_ok_iff {image : Image} {seen : List Int32}
    {entries : List (UInt32 × ScriptInstance)} :
    checkInstances image seen entries = .ok () ↔
      (∀ e ∈ entries, e.2.number ∉ seen ∧ e.2.WellFormed image) ∧
      entries.Pairwise fun a b => a.2.number ≠ b.2.number := by
  induction entries generalizing seen with
  | nil => simp [checkInstances]
  | cons e rest ih =>
      rw [checkInstances, bind_eq_ok_iff, List.pairwise_cons, List.forall_mem_cons]
      constructor
      · rintro ⟨_, hfirst, hrest⟩
        obtain ⟨hall, hpair⟩ := ih.1 hrest
        refine ⟨⟨checkInstance_eq_ok_iff.1 hfirst, fun x hx => ?_⟩, fun x hx => ?_, hpair⟩
        · exact ⟨fun hmem => (hall x hx).1 (List.mem_cons_of_mem _ hmem), (hall x hx).2⟩
        · exact fun heq => (hall x hx).1 (by rw [heq]; exact List.mem_cons_self)
      · rintro ⟨⟨hfirst, hall⟩, hnew, hpair⟩
        refine ⟨(), checkInstance_eq_ok_iff.2 hfirst, ih.2 ⟨fun x hx => ⟨?_, (hall x hx).2⟩, hpair⟩⟩
        rw [List.mem_cons, not_or]
        exact ⟨(hnew x hx).symm, (hall x hx).1⟩

theorem checkInstances_table_iff {image : Image} {t : InstanceTable} :
    checkInstances image [] t.records.entries = .ok () ↔ t.WellFormed image := by
  rw [checkInstances_eq_ok_iff]
  constructor
  · rintro ⟨hall, hpair⟩
    constructor
    · intro h i hi
      exact (hall (h, i) ((t.records.get?_eq_some_iff h i).1 hi)).2
    · intro h h' i i' hi hi' hnumber
      have hi := (t.records.get?_eq_some_iff h i).1 hi
      have hi' := (t.records.get?_eq_some_iff h' i').1 hi'
      have hsymm : Std.Symm fun a b : UInt32 × ScriptInstance => a.2.number ≠ b.2.number :=
        ⟨fun _ _ hab => hab.symm⟩
      by_contra hne
      exact hpair.forall hi hi' (fun heq => hne (congrArg Prod.fst heq)) hnumber
  · intro ht
    constructor
    · rintro ⟨h, i⟩ hmem
      exact ⟨List.not_mem_nil, ht.instances h i ((t.records.get?_eq_some_iff h i).2 hmem)⟩
    · -- handles ascend, so two entries with one number would be under one handle
      refine t.records.ascending.imp_of_mem fun {a b} ha hb hlt heq => ?_
      have ha := (t.records.get?_eq_some_iff a.1 a.2).2 ha
      have hb := (t.records.get?_eq_some_iff b.1 b.2).2 hb
      rw [ht.unique a.1 b.1 a.2 b.2 ha hb heq] at hlt
      exact UInt32.lt_irrefl _ hlt

theorem le_last {t : InstanceTable} {last h : UInt32} (hlast : t.handles.getLast? = some last)
    (hh : h ∈ t.handles) : h ≤ last := by
  obtain ⟨front, hfront⟩ := List.getLast?_eq_some_iff.1 hlast
  have hascending : t.handles.Pairwise (· < ·) := List.pairwise_map.2 t.records.ascending
  rw [hfront, List.pairwise_append] at hascending
  rw [hfront, List.mem_append, List.mem_singleton] at hh
  rcases hh with hh | rfl
  · exact UInt32.le_of_lt (hascending.2.2 h hh last List.mem_cons_self)
  · exact UInt32.le_refl h

theorem checkNext_eq_ok_iff {t : InstanceTable} : checkNext t = .ok () ↔ t.Fresh := by
  unfold checkNext
  split
  · rename_i hnone
    have hempty : t.handles = [] := List.getLast?_eq_none_iff.1 hnone
    refine ⟨fun _ h i hi => ?_, fun _ => rfl⟩
    have hmem := (t.mem_handles_iff h).2 ⟨i, hi⟩
    rw [hempty] at hmem
    cases hmem
  · rename_i last hlast
    constructor
    · intro hok h i hi
      split at hok
      · rename_i hlt
        exact UInt32.lt_of_le_of_lt (le_last hlast ((t.mem_handles_iff h).2 ⟨i, hi⟩)) hlt
      · cases hok
    · intro hfresh
      obtain ⟨i, hi⟩ := (t.mem_handles_iff last).1 (List.mem_of_getLast? hlast)
      rw [if_pos (hfresh last i hi)]

/-- The machine after a snapshot was taken back. -/
def restored (m : Machine) (image : Image) (s : Snapshot) : Machine :=
  { m with
    image
    map := s.map
    worldVars := s.worldVars
    mapVars := s.mapVars
    instances := s.instances
    deferred := s.deferred
    print := m.print.clear }

theorem restore_eq_ok_iff {m m' : Machine} {image : Image} {s : Snapshot} {journal : Journal} :
    m.restore image s = .ok (m', journal) ↔
      s.instances.Fresh ∧ s.instances.WellFormed image ∧ m' = m.restored image s ∧
        journal = #[.restored s.map s.instances.size] := by
  rw [← checkNext_eq_ok_iff, ← checkInstances_table_iff, restore, bind_eq_ok_iff]
  constructor
  · rintro ⟨_, hnext, h⟩
    obtain ⟨_, hinstances, h⟩ := bind_eq_ok_iff.1 h
    cases h
    exact ⟨hnext, hinstances, rfl, rfl⟩
  · rintro ⟨hnext, hinstances, rfl, rfl⟩
    exact ⟨(), hnext, bind_eq_ok_iff.2 ⟨(), hinstances, rfl⟩⟩

end MapScript.Machine
