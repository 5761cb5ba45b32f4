import MapScript.Proofs.Image.Reachability

/-!
# How long the search takes

Each turn of the search takes a cell off the pending ones.  A cell that has been decoded adds none,
and one that is decoded now adds two at most and is never decoded again; so there are only so many
turns for each entry and for each cell of the code area.  `Exploration.Ends` counts the turns of a
search to its end, and the main statement is `decodeReachable_ends_within`.
-/

namespace MapScript

namespace Exploration

variable {code : Array Int32} {e : Exploration code} {pops : Nat}
  {result : Except CodeError Program}

/-- The search ends with the result after so many cells have been taken off the pending ones. There
is no rule for a pending cell outside the code area. -/
inductive Ends : Exploration code → Nat → Except CodeError Program → Prop
  | emptied {e : Exploration code} (hp : e.pending = []) : Ends e 0 (.ok ⟨e.slots.toArray⟩)
  | refused {e : Exploration code} {pc : Nat} {rest : List Nat} {cause : CodeError}
      (hp : e.pending = pc :: rest) (inside : pc < code.size)
      (hlook : e.look pc rest = .error cause) : Ends e 1 (.error cause)
  | looked {e e' : Exploration code} {pc : Nat} {rest : List Nat} {pops : Nat}
      {result : Except CodeError Program} (hp : e.pending = pc :: rest) (inside : pc < code.size)
      (hlook : e.look pc rest = .ok e') (hends : Ends e' pops result) : Ends e (pops + 1) result

/-- The cells that were not decoded when the search ended well. -/
def undecoded : Except CodeError Program → Nat
  | .ok p => p.slots.countP Option.isNone
  | .error _ => 0

/-- What the measure promises at the start has been spent on pops, or is left over for the cells
that were not decoded. -/
theorem Ends.pops_add_le (h : e.Ends pops result) : pops + 2 * undecoded result ≤ e.measure := by
  induction h with
  | emptied hp =>
      rw [undecoded, measure, unseen, hp, Vector.countP_toArray]
      simp
  | refused hp inside hlook =>
      rw [undecoded, measure, hp, List.length_cons]
      omega
  | looked hp inside hlook hends ih =>
      have hless := measure_look hp hlook
      omega

/-! ## One pop -/

theorem Ends.of_nil (h : e.Ends pops result) (hp : e.pending = []) :
    pops = 0 ∧ result = .ok ⟨e.slots.toArray⟩ := by
  cases h <;> simp_all

theorem Ends.of_error {pc : Nat} {rest : List Nat} {cause : CodeError} (h : e.Ends pops result)
    (hp : e.pending = pc :: rest) (hlook : e.look pc rest = .error cause) :
    pops = 1 ∧ result = .error cause := by
  cases h <;> simp_all

theorem Ends.of_ok {e' : Exploration code} {pc : Nat} {rest : List Nat} (h : e.Ends pops result)
    (hp : e.pending = pc :: rest) (hlook : e.look pc rest = .ok e') :
    ∃ before, pops = before + 1 ∧ e'.Ends before result := by
  cases h <;> simp_all

/-! ## Whole searches -/

theorem Ends.unique (h : e.Ends pops result) :
    ∀ {pops' : Nat} {result' : Except CodeError Program}, e.Ends pops' result' →
      pops' = pops ∧ result' = result := by
  induction h with
  | emptied hp => exact fun h' => h'.of_nil hp
  | refused hp _ hlook => exact fun h' => h'.of_error hp hlook
  | looked hp _ hlook _ ih =>
      intro pops' result' h'
      obtain ⟨before, rfl, hends⟩ := h'.of_ok hp hlook
      obtain ⟨rfl, rfl⟩ := ih hends
      exact ⟨rfl, rfl⟩

/-- A search that only has cells of the code area before it comes to an end, with the result that
`run` gives. -/
theorem Exact.ends {entries : List Nat} (he : e.Exact entries) : ∃ pops, e.Ends pops e.run := by
  have inside : ∀ {e : Exploration code} {pc : Nat} {rest : List Nat}, e.Exact entries →
      e.pending = pc :: rest → pc < code.size := by
    intro e pc rest he hp
    exact (he.pending pc (by rw [hp]; exact List.mem_cons_self)).2
  fun_induction Exploration.run e with
  | case1 e hp => exact ⟨0, .emptied hp⟩
  | case2 e pc rest hp cause hlook => exact ⟨1, .refused hp (inside he hp) hlook⟩
  | case3 e pc rest hp e' hlook ih =>
      rcases he.look hp with ⟨e'', hok, hexact⟩ | ⟨⟨cause, herror⟩, _⟩
      · rw [hlook] at hok
        cases hok
        obtain ⟨pops, hends⟩ := ih hexact
        exact ⟨pops + 1, .looked hp (inside he hp) hlook hends⟩
      · rw [hlook] at herror
        cases herror

end Exploration

theorem Program.size_add_undecoded (p : Program) :
    p.size + Exploration.undecoded (.ok p) = p.slots.size := by
  have hnot : (fun slot : Option Decoded => decide ¬ slot.isSome = true) = Option.isNone := by
    funext slot
    cases slot <;> rfl
  rw [Program.size, Exploration.undecoded, ← hnot]
  exact Array.size_eq_countP_add_countP.symm

/-- The search always ends, and soon: it takes no more cells off the pending ones than there are
entries and twice as many as the code area has cells, whatever the code; and where it ends well, no
more than there are entries and twice as many as it decoded. -/
theorem decodeReachable_ends_within (code : Array Int32) (entries : List Nat)
    (hentries : ∀ pc ∈ entries, pc < code.size) :
    ∃ pops, (Exploration.start code entries).Ends pops (decodeReachable code entries) ∧
      pops ≤ entries.length + 2 * code.size ∧
      (∀ p, decodeReachable code entries = .ok p → pops ≤ entries.length + 2 * p.size) ∧
      ∀ pops' result, (Exploration.start code entries).Ends pops' result →
        pops' = pops ∧ result = decodeReachable code entries := by
  obtain ⟨pops, hends⟩ := (Exploration.exact_start hentries).ends
  have hspent := hends.pops_add_le
  rw [Exploration.measure_start] at hspent
  refine ⟨pops, hends, by omega, ?_, fun _ _ hends' => hends.unique hends'⟩
  intro p hp
  have hsize := p.size_add_undecoded
  rw [size_decodeReachable hentries hp] at hsize
  rw [decodeReachable] at hp
  rw [hp] at hspent
  omega

/-- A conditional branch to itself, and a branch into the operand of another. -/
def loopCells : Array Int32 := #[0, 0, 53, 8, 52, 12, 0, 0, 0, 0, 0, 1]

theorem decodeReachable_ends_within_loop :
    (∀ pc ∈ [2, 4], pc < loopCells.size) ∧
    ∃ pops ≤ 12, (Exploration.start loopCells [2, 4]).Ends pops
      (decodeReachable loopCells [2, 4]) := by
  have hentries : ∀ pc ∈ [2, 4], pc < loopCells.size := by decide
  have hrun : decodeReachable loopCells [2, 4] =
      .ok ⟨#[none, none, some ⟨.ifGoto 2, 4⟩, some ⟨.lineSpecial 52 5, 5⟩, some ⟨.goto 3, 6⟩,
        some ⟨.lineSpecialDirect 0 4 SpecialArgs.zero, 11⟩, none, none, none, none, none,
        some ⟨.terminate, 12⟩]⟩ := by cbv
  obtain ⟨pops, hends, _, hless, _⟩ := decodeReachable_ends_within loopCells [2, 4] hentries
  exact ⟨hentries, pops, hless _ hrun, hends⟩

end MapScript
