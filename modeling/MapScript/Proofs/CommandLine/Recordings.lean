import MapScript.CommandLine.Run
import MapScript.Proofs.Machine.Draining

/-!
# Recordings

The run command drains its host after every tick and keeps the events under their ticks.  `Follows`
compares this with a host that is never drained; one tick keeps it, and so does a run.  The main
statement is `simulate_undrained`.
-/

namespace MapScript

/-- A machine and its host after some ticks.  The host is never drained, and its clock advances
after every tick. -/
def Session.watched (m : Machine) (start : Host) : Nat → Session
  | 0 => { machine := m, host := start }
  | n + 1 =>
    let s := (watched m start n).tick
    { machine := s.machine, host := s.host.advance }

namespace CommandLine.Run

open Session (watched)

namespace Recording

/-- The recording after `n` ticks beside the host that is never drained: the machines are the same,
the hosts but for their events, and the events but for their stamps.  The stamps go up, and those of
a tick are on what that tick added. -/
structure Follows (m : Machine) (start : Host) (n : Nat) (r : Recording) : Prop where
  machine : r.machine = (watched m start n).machine
  host : r.host = (watched m start n).host.drain
  events : r.events.map (·.2) = (watched m start n).host.events
  ascending : r.events.toList.Pairwise (·.1 ≤ ·.1)
  below : ∀ e ∈ r.events, e.1 < n
  stamped : ∀ t < n, (watched m start (t + 1)).host.events.toList =
    (watched m start t).host.events.toList ++ (r.events.toList.filter (·.1 = t)).map (·.2)

variable {m : Machine} {start : Host} {n : Nat} {r : Recording}

theorem follows_start (hdrained : start.drain = start) :
    Follows m start 0 { machine := m, host := start } := by
  refine ⟨rfl, hdrained.symm, ?_, .nil, by simp, by simp⟩
  have hnone : start.events = #[] := congrArg Host.events hdrained.symm
  rw [watched, hnone]
  simp

/-- The next tick of a recording is the one of the other host, drained before. -/
theorem Follows.session (h : Follows m start n r) :
    Session.tick { machine := r.machine, host := r.host } = (watched m start n).drain.tick := by
  have hjournal : (watched m start n).journal = #[] := by cases n <;> rfl
  rw [h.machine, h.host, Session.drain, hjournal]

/-- Events under a stamp of their own are found under it, and under no stamp before. -/
theorem under_append {events : List (Nat × HostEvent)} (hbelow : ∀ e ∈ events, e.1 < n)
    (new : List HostEvent) (t : Nat) :
    ((events ++ new.map (n, ·)).filter (·.1 = t)).map (·.2) =
      if t = n then new else (events.filter (·.1 = t)).map (·.2) := by
  rw [List.filter_append, List.map_append, List.filter_map]
  by_cases ht : t = n
  · have hold : events.filter (·.1 = t) = [] := by
      rw [List.filter_eq_nil_iff]
      intro e he
      have hlt := hbelow e he
      simp only [decide_eq_true_eq]
      omega
    rw [if_pos ht, hold, ht]
    simp [Function.comp_def]
  · have hnone : new.filter ((fun e : Nat × HostEvent => e.1 = t) ∘ (n, ·)) = [] := by
      rw [List.filter_eq_nil_iff]
      intro e _
      simpa using Ne.symm ht
    rw [if_neg ht, hnone, List.map_nil, List.map_nil, List.append_nil]

theorem Follows.tick (h : Follows m start n r) : Follows m start (n + 1) (r.tick n) := by
  have hwatched : watched m start (n + 1) =
      { machine := (watched m start n).drain.tick.machine
        host := ((watched m start n).drain.tick.host.withPast
          (watched m start n).host.events).advance } := by
    rw [watched, (watched m start n).tick_drain]
    rfl
  -- the events of this tick, before they are stamped
  obtain ⟨new, hnew⟩ : ∃ new, new = (watched m start n).drain.tick.host.events := ⟨_, rfl⟩
  have hevents : (watched m start (n + 1)).host.events =
      (watched m start n).host.events ++ new := by
    rw [hwatched, hnew]
    rfl
  simp only [Recording.tick, h.session, ← hnew]
  refine ⟨?_, ?_, ?_, ?_, fun e he => ?_, fun t ht => ?_⟩
  · rw [hwatched]
  · rw [hwatched]
    rfl
  · rw [hevents, Array.map_append, h.events, Array.map_map]
    simp
  · rw [Array.toList_append, List.pairwise_append]
    refine ⟨h.ascending, ?_, fun a ha b hb => ?_⟩
    · rw [Array.toList_map, List.pairwise_map]
      exact List.pairwise_of_forall fun _ _ => Nat.le_refl n
    · have hlt := h.below a (Array.mem_toList_iff.1 ha)
      obtain ⟨e, _, rfl⟩ := Array.mem_map.1 (Array.mem_toList_iff.1 hb)
      exact Nat.le_of_lt hlt
  · rcases Array.mem_append.1 he with he | he
    · exact Nat.lt_succ_of_lt (h.below e he)
    · obtain ⟨event, _, rfl⟩ := Array.mem_map.1 he
      exact Nat.lt_succ_self n
  · have hbelow : ∀ e ∈ r.events.toList, e.1 < n :=
      fun e he => h.below e (Array.mem_toList_iff.1 he)
    rw [Array.toList_append, Array.toList_map, under_append hbelow]
    split
    · rename_i heq
      rw [heq, hevents, Array.toList_append]
    · exact h.stamped t (by omega)

theorem ticks_succ (r : Recording) (now n : Nat) :
    r.ticks now (n + 1) = (r.ticks now n).tick (now + n) := by
  induction n generalizing r now with
  | zero => rfl
  | succ n ih =>
      rw [ticks, ih, ticks, Nat.add_right_comm, Nat.add_assoc]

/-- A whole recording, from a host without events. -/
theorem follows_ticks (hdrained : start.drain = start) (n : Nat) :
    Follows m start n (ticks { machine := m, host := start } 0 n) := by
  induction n with
  | zero => exact follows_start hdrained
  | succ n ih =>
      rw [ticks_succ, Nat.zero_add]
      exact ih.tick

end Recording

/-- The machine that the run command sets to work: the image is loaded and the scripts asked for
are started. -/
def launched (args : Args) (starts : List StartRequest) (config : Config) (entropy : Generator)
    (bytes : List UInt8) : Machine :=
  let config := { config with rngSeed := args.seed.or config.rngSeed }
  (startAll ((Machine.new config entropy).load args.map bytes).report.machine {} starts).1

theorem simulate_eq_ok {args : Args} {starts : List StartRequest} {config : Config}
    {entropy : Generator} {bytes : List UInt8} {r : Recording} {out : Output}
    (h : simulate args starts config entropy bytes = .ok (r, out)) :
    r = Recording.ticks { machine := launched args starts config entropy bytes, host := .new } 0
      args.ticks.toNat := by
  cases hseed : args.seed with
  | none =>
      simp only [simulate, hseed] at h
      simp only [launched, hseed, Option.none_or]
      split at h
      · cases h
      · cases h
        rfl
  | some seed =>
      simp only [simulate, hseed] at h
      simp only [launched, hseed, Option.some_or]
      split at h
      · cases h
      · cases h
        rfl

/-- Draining the host does not influence the run.  A tick leaves what was recorded before in front
of what it adds, and neither this nor the machine, the reports and the rest of the host depend on
it.  So the events that the run command collects are, without their stamps, those of a host that is
never drained; the stamps go up and stay below the number of ticks, and a tick's stamp is on the
events that this tick adds. -/
theorem simulate_undrained (args : Args) (starts : List StartRequest) (config : Config)
    (entropy : Generator) (bytes : List UInt8) :
    (∀ (s : Session) (past : Array HostEvent),
      let tick := Session.tick { s with host := { s.host with events := past } }
      let bare := Session.tick { s with host := { s.host with events := #[] } }
      tick.host.events = past ++ bare.host.events ∧ tick.machine = bare.machine ∧
      tick.journal = bare.journal ∧ tick.host = { bare.host with events := tick.host.events }) ∧
    ∀ r out, simulate args starts config entropy bytes = .ok (r, out) →
      let m := launched args starts config entropy bytes
      let n := args.ticks.toNat
      r.events.map (·.2) = (watched m .new n).host.events ∧
      r.events.toList.Pairwise (·.1 ≤ ·.1) ∧ (∀ e ∈ r.events, e.1 < n) ∧
      (∀ t < n, (watched m .new (t + 1)).host.events.toList =
        (watched m .new t).host.events.toList ++
          (r.events.toList.filter (·.1 = t)).map (·.2)) ∧
      r.machine = (watched m .new n).machine ∧
      r.host = { (watched m .new n).host with events := #[] } := by
  refine ⟨fun s past => ?_, fun r out hrun => ?_⟩
  · intro tick bare
    have htick : tick = bare.withPast past := by
      have hpast := Session.tick_withPast past { s with host := { s.host with events := #[] } }
      rw [← hpast, Session.withPast, Host.withPast, Array.append_empty]
    rw [htick]
    exact ⟨rfl, rfl, rfl, rfl⟩
  · intro m n
    rw [simulate_eq_ok hrun]
    have hfollows :
        Recording.Follows m .new n (Recording.ticks { machine := m, host := .new } 0 n) :=
      Recording.follows_ticks rfl n
    exact ⟨hfollows.events, hfollows.ascending, hfollows.below, hfollows.stamped,
      hfollows.machine, hfollows.host⟩

/-- An image whose open script prints the time once in every tick. -/
def clockImage : List UInt8 :=
  Word.join [0x534341, 36, 85, 93, 88, 86, 56, 0, 69, 1, 1001, 8, 0, 0]

def clockArgs : Args where
  image := "clock"
  map := 1
  ticks := 3
  config := none
  seed := some 5
  starts := []
  eventLog := none
  snapshot := none

/-- Three ticks print three times, the second of them the time one. -/
theorem simulate_undrained_clock :
    let m := launched clockArgs [] { openScriptDelay := 0 } 0 clockImage
    (watched m .new 3).host.prints = ["0", "1", "2"] ∧
    ∃ r out, simulate clockArgs [] { openScriptDelay := 0 } 0 clockImage = .ok (r, out) ∧
      r.events.map (·.2) = (watched m .new 3).host.events ∧
      (watched m .new 2).host.events.toList =
        (watched m .new 1).host.events.toList ++
          (r.events.toList.filter (·.1 = 1)).map (·.2) := by
  intro m
  have hok : (simulate clockArgs [] { openScriptDelay := 0 } 0 clockImage).isOk = true := by
    decide +kernel
  refine ⟨by decide +kernel, ?_⟩
  cases hrun : simulate clockArgs [] { openScriptDelay := 0 } 0 clockImage with
  | error causes =>
      rw [hrun] at hok
      cases hok
  | ok result =>
      obtain ⟨r, out⟩ := result
      have hundrained := (simulate_undrained clockArgs [] { openScriptDelay := 0 } 0
        clockImage).2 r out hrun
      obtain ⟨hevents, _, _, hstamped, _⟩ := hundrained
      exact ⟨r, out, rfl, hevents, hstamped 1 (by decide)⟩

end CommandLine.Run

end MapScript
