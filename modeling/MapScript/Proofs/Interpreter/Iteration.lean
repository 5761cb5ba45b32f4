import MapScript.Interpreter.Step

/-!
# Slices as bounded iteration

Here steps are made one after the other, without a limit and whatever they end with: `nthStep`.  A
slice is the first of them that does not go on, if it comes within the limit, and otherwise a fault
where the last of them has led.
-/

namespace MapScript

/-- What the `n`-th step comes to.  Before the first step nothing has been done. -/
def nthStep (image : Image) (i : ScriptInstance) (c : Context) : Nat → Stepped
  | 0 => ⟨.continue, i, c⟩
  | n + 1 => step image (nthStep image i c n).inst (nthStep image i c n).context

/-- The `k`-th step is the first that does not go on. -/
structure StopsAfter (image : Image) (i : ScriptInstance) (c : Context) (k : Nat) : Prop where
  stops : (nthStep image i c k).ending ≠ .continue
  goesOn : ∀ j < k, (nthStep image i c j).ending = .continue

variable {image : Image} {i : ScriptInstance} {c : Context}

/-- The steps after a first one that goes on are those from where it has led. -/
theorem nthStep_succ (hfirst : (step image i c).ending = .continue) (n : Nat) :
    nthStep image i c (n + 1) = nthStep image (step image i c).inst (step image i c).context n := by
  induction n with
  | zero =>
      simp only [nthStep]
      rw [← hfirst]
  | succ n ih => rw [nthStep, ih, nthStep]

theorem StopsAfter.pos {k : Nat} (h : StopsAfter image i c k) : 0 < k := by
  apply Nat.pos_of_ne_zero
  rintro rfl
  exact h.stops rfl

theorem StopsAfter.of_succ (hfirst : (step image i c).ending = .continue) {k : Nat}
    (h : StopsAfter image i c (k + 1)) :
    StopsAfter image (step image i c).inst (step image i c).context k := by
  refine ⟨?_, fun j hj => ?_⟩
  · rw [← nthStep_succ hfirst]
    exact h.stops
  · rw [← nthStep_succ hfirst]
    exact h.goesOn (j + 1) (Nat.succ_lt_succ hj)

/-- Within any number of steps there is a first one that does not go on, or they all go on. -/
theorem stopsAfter_or_goesOn (image : Image) (i : ScriptInstance) (c : Context) (n : Nat) :
    (∃ k ≤ n, StopsAfter image i c k) ∨ ∀ j ≤ n, (nthStep image i c j).ending = .continue := by
  induction n with
  | zero =>
      refine .inr fun j hj => ?_
      rw [Nat.le_zero.1 hj]
      rfl
  | succ n ih =>
      obtain ⟨k, hk, hstops⟩ | hgoesOn := ih
      · exact .inl ⟨k, Nat.le_succ_of_le hk, hstops⟩
      · by_cases hend : (nthStep image i c (n + 1)).ending = .continue
        · refine .inr fun j hj => ?_
          obtain hj | rfl := Nat.le_succ_iff.1 hj
          · exact hgoesOn j hj
          · exact hend
        · exact .inl ⟨n + 1, Nat.le_refl _, hend, fun j hj => hgoesOn j (Nat.le_of_lt_succ hj)⟩

theorem sliceFrom_of_stopsAfter (limit : UInt32) {fuel k : Nat} (h : StopsAfter image i c k)
    (hk : k ≤ fuel) : sliceFrom image limit fuel i c = nthStep image i c k := by
  induction fuel generalizing i c k with
  | zero => exact absurd h.pos (Nat.not_lt.2 hk)
  | succ fuel ih =>
      obtain ⟨k, rfl⟩ := Nat.exists_eq_add_one.2 h.pos
      simp only [sliceFrom]
      by_cases hfirst : (step image i c).ending = .continue
      · simp only [hfirst]
        rw [ih (h.of_succ hfirst) (Nat.le_of_succ_le_succ hk), nthStep_succ hfirst]
      · -- all steps before the `k + 1`-st go on, so the first can only be that one
        obtain rfl : k = 0 := by
          apply Nat.eq_zero_of_not_pos
          exact fun hpos => hfirst (h.goesOn 1 (Nat.succ_lt_succ hpos))
        split
        · contradiction
        · rfl

theorem sliceFrom_of_goesOn (limit : UInt32) {fuel : Nat}
    (h : ∀ j ≤ fuel, (nthStep image i c j).ending = .continue) :
    sliceFrom image limit fuel i c =
      { nthStep image i c fuel with ending := .fault (.runaway limit) } := by
  induction fuel generalizing i c with
  | zero => rfl
  | succ fuel ih =>
      have hfirst : (step image i c).ending = .continue := h 1 (Nat.le_add_left 1 fuel)
      simp only [sliceFrom, hfirst]
      rw [nthStep_succ hfirst]
      apply ih
      intro j hj
      rw [← nthStep_succ hfirst]
      exact h (j + 1) (Nat.succ_le_succ hj)

/-- A slice that stops within its limit is its last step. -/
theorem runSlice_of_stopsAfter {limit : UInt32} {k : Nat} (h : StopsAfter image i c k)
    (hk : k ≤ limit.toNat) : runSlice image limit i c = nthStep image i c k :=
  sliceFrom_of_stopsAfter limit h hk

/-- A slice that could go on at its limit is a fault. -/
theorem runSlice_of_goesOn {limit : UInt32}
    (h : ∀ j ≤ limit.toNat, (nthStep image i c j).ending = .continue) :
    runSlice image limit i c =
      { nthStep image i c limit.toNat with ending := .fault (.runaway limit) } :=
  sliceFrom_of_goesOn limit h

/-- A greater limit changes nothing for a slice that does not run into the lesser one. -/
theorem runSlice_of_le {limit limit' : UInt32} (hle : limit ≤ limit')
    (hwithin : (runSlice image limit i c).ending ≠ .fault (.runaway limit)) :
    runSlice image limit' i c = runSlice image limit i c := by
  obtain ⟨k, hk, hstops⟩ | hgoesOn := stopsAfter_or_goesOn image i c limit.toNat
  · rw [runSlice_of_stopsAfter hstops hk, runSlice_of_stopsAfter hstops]
    exact Nat.le_trans hk (UInt32.le_iff_toNat_le.1 hle)
  · rw [runSlice_of_goesOn hgoesOn] at hwithin
    exact absurd rfl hwithin

end MapScript
