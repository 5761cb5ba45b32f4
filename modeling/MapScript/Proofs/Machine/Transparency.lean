import MapScript.Proofs.Machine.Runs

/-!
# Snapshots are transparent

A snapshot of a machine that has kept counting its handles is always taken back,
and then the two machines agree on everything a snapshot holds.  Where they agree
on the rest too, nothing that is done to them later can tell them apart.
-/

namespace MapScript.Machine

/-- The answers and reports of a list of operations. -/
def answers (m : Machine) : List Operation → List (Answer × Journal)
  | [] => []
  | op :: ops => ((m.perform op).answer, (m.perform op).journal) ::
      (m.perform op).machine.answers ops

/-- Some run leads to the machine. -/
def Reached (m : Machine) : Prop :=
  ∃ config entropy ops, m = (new config entropy).after ops

theorem Reached.printLimited {m : Machine} (h : m.Reached) : m.PrintLimited := by
  obtain ⟨config, entropy, ops, rfl⟩ := h
  exact printLimited_after config entropy ops

/-- A machine with nothing in its print buffer is the one restored from it on a
machine with the same configuration, generator and bound. -/
theorem restored_snapshot {m r : Machine} (hprint : m.print.text = "")
    (hlimit : r.print.limit = m.print.limit) (hconfig : r.config = m.config)
    (hrng : r.rng = m.rng) : r.restored m.image m.snapshot = m := by
  have hclear : r.print.clear = m.print := by
    rw [PrintBuffer.clear, hlimit, ← hprint]
  simp only [restored, snapshot]
  rw [hclear, hconfig, hrng]

/-- Taking a snapshot of a machine and taking it back on another is transparent
as long as the counter of handles has not started over: the snapshot is accepted,
and the other machine then has everything of the first but its print buffer,
configuration and generator, which are its own, the buffer emptied.  If these agree
too, every further list of operations answers and leaves the same.  A snapshot that
is refused changes nothing. -/
theorem restore_snapshot_transparent (config : Config) (entropy : Generator) (ops : List Operation)
    (hcount : (new config entropy).CountsOn ops) (r : Machine) :
    let v := (new config entropy).after ops
    (∃ r' journal, r.restore v.image v.snapshot = .ok (r', journal) ∧
      r'.image = v.image ∧ r'.map = v.map ∧ r'.worldVars = v.worldVars ∧
      r'.mapVars = v.mapVars ∧ r'.instances = v.instances ∧ r'.deferred = v.deferred ∧
      r'.print.text = "" ∧ r'.config = r.config ∧ r'.rng = r.rng ∧
      (r.Reached → v.print.text = "" → r.config = v.config → r.rng = v.rng →
        ∀ further, r'.answers further = v.answers further ∧
          r'.after further = v.after further)) ∧
    ∀ bytes s cause, (r.perform (.restore bytes s)).answer = .restored (some cause) →
      (r.perform (.restore bytes s)).machine = r := by
  intro v
  have hfresh : v.instances.Fresh := fresh_after (fresh_of_get?_eq_none fun _ => rfl) hcount
  have htable : v.instances.WellFormed v.image := (wellFormed_after_new config entropy ops).table
  refine ⟨⟨r.restored v.image v.snapshot, _, restore_eq_ok_iff.2 ⟨hfresh, htable, rfl, rfl⟩,
    rfl, rfl, rfl, rfl, rfl, rfl, rfl, rfl, rfl, ?_⟩, ?_⟩
  · intro hr hprint hconfig hrng further
    have hlimit : r.print.limit = v.print.limit := by
      rw [hr.printLimited, printLimited_after config entropy ops, hconfig]
    rw [restored_snapshot hprint hlimit hconfig hrng]
    exact ⟨rfl, rfl⟩
  · intro bytes s cause hrefused
    simp only [perform] at hrefused ⊢
    split
    · rfl
    · rename_i image hparse
      rw [hparse] at hrefused
      simp only at hrefused
      split
      · rfl
      · rename_i m' journal hrestore
        rw [hrestore] at hrefused
        cases hrefused

/-- An image whose open script starts another one and waits for it, while that one
sits out some turns. -/
def waitingImage : List UInt8 :=
  Word.join [0x534341, 48, 10, 80, 2, 0, 82, 2, 69, 56, 5, 1, 2, 1001, 8, 0, 2, 36, 0, 0]

/-- The first ticks of the waiting image on its map. -/
def waitingRun : List Operation := [.load 1 waitingImage, .tick .new, .tick .new]

/-- A script that waits and one that sleeps, taken back on a machine with another
seed. -/
theorem restore_snapshot_transparent_waiting :
    (new { openScriptDelay := 0, rngSeed := some 1 } 0).CountsOn waitingRun ∧
    ((new { openScriptDelay := 0, rngSeed := some 1 } 0).after waitingRun).instances.size = 2 ∧
    ∃ r' journal, (new {} 7).restore
        ((new { openScriptDelay := 0, rngSeed := some 1 } 0).after waitingRun).image
        ((new { openScriptDelay := 0, rngSeed := some 1 } 0).after waitingRun).snapshot =
          .ok (r', journal) ∧
      r'.instances =
        ((new { openScriptDelay := 0, rngSeed := some 1 } 0).after waitingRun).instances := by
  have hcount : (new { openScriptDelay := 0, rngSeed := some 1 } 0).CountsOn waitingRun := by
    decide +kernel
  obtain ⟨⟨r', journal, hrestore, _, _, _, _, hinstances, _⟩, _⟩ :=
    restore_snapshot_transparent { openScriptDelay := 0, rngSeed := some 1 } 0 waitingRun hcount
      (new {} 7)
  exact ⟨hcount, by decide +kernel, r', journal, hrestore, hinstances⟩

end MapScript.Machine
