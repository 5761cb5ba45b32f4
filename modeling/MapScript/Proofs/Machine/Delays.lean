import MapScript.Proofs.Machine.Bystanders
import MapScript.Proofs.Machine.Transparency

/-!
# Delays

A delay is sat out in full: it goes down by one in a turn in which its instance may run, and in no
other way, and while it lasts the instance runs no slice.  An instance that waits has no delay left,
so that it runs as soon as its wait is found to be over.
-/

namespace MapScript

/-- The instance after it has sat out `n` turns; apart from its delay only its state may differ. -/
def ScriptInstance.SatOut (i : ScriptInstance) (n : Nat) (j : ScriptInstance) : Prop :=
  ∃ state delay, j = { i with state, delay } ∧ delay.toNat + n = i.delay.toNat

namespace ScriptInstance

variable {i j k : ScriptInstance} {n n' : Nat}

theorem SatOut.trans (h : i.SatOut n j) (h' : j.SatOut n' k) : i.SatOut (n + n') k := by
  obtain ⟨_, _, rfl, hn⟩ := h
  obtain ⟨state, delay, rfl, hn'⟩ := h'
  refine ⟨state, delay, rfl, ?_⟩
  simp only at hn'
  omega

theorem SatOut.delay (h : i.SatOut n j) : j.delay.toNat + n = i.delay.toNat := by
  obtain ⟨_, _, rfl, hn⟩ := h
  exact hn

theorem satOut_state (i : ScriptInstance) (state : ScriptState) :
    i.SatOut 0 { i with state } :=
  ⟨state, i.delay, rfl, rfl⟩

theorem satOut_one (hdelay : i.delay ≠ 0) (state : ScriptState) :
    i.SatOut 1 { i with state, delay := i.delay - 1 } := by
  have hpos : 0 < i.delay.toNat := by
    apply Nat.pos_of_ne_zero
    intro hzero
    exact hdelay (UInt32.toNat_inj.1 hzero)
  have hone : (1 : UInt32).toNat = 1 := rfl
  have hle : (1 : UInt32) ≤ i.delay := by
    rw [UInt32.le_iff_toNat_le]
    omega
  refine ⟨state, i.delay - 1, rfl, ?_⟩
  rw [UInt32.toNat_sub_of_le _ _ hle]
  omega

end ScriptInstance

/-- What becomes of the instance `i` under a handle in work of which `turns` are the turns: it ends
or sits out at most `n` turns, it runs no slice, and where it is running whenever its turn comes it
sits out exactly `n`. -/
structure InstanceTable.Delays (h : UInt32) (i : ScriptInstance) (turns : List (Session × UInt32))
    (n : Nat) (t : InstanceTable) : Prop where
  rests : t.get? h = none ∨ ∃ k j, k ≤ n ∧ t.get? h = some j ∧ i.SatOut k j
  idle : ∀ s, (s, h) ∈ turns → s.slicing? h = none
  running : (∀ s j, (s, h) ∈ turns → s.machine.instances.get? h = some j → j.state = .running) →
    ∃ j, t.get? h = some j ∧ i.SatOut n j

theorem InstanceTable.Spares.delays {t t' : InstanceTable} {h : UInt32} {i : ScriptInstance}
    (hspares : t.Spares h t') (hi : t.get? h = some i) : Delays h i [] 0 t' := by
  obtain ⟨state, _, hi'⟩ := hspares.live i hi
  exact ⟨.inr ⟨0, _, le_refl 0, hi', i.satOut_state state⟩, fun _ => nofun,
    fun _ => ⟨_, hi', i.satOut_state state⟩⟩

namespace Session

variable {s : Session} {h : UInt32} {i : ScriptInstance}

/-- In its own turn an instance with a delay left is removed, held, or sits out the turn. -/
theorem play_of_delay (hi : s.machine.instances.get? h = some i) (hdelay : i.delay ≠ 0) :
    i.state = .terminating ∧ (s.play h).session.machine.instances.get? h = none ∨
    s.Held i ∧ (s.play h).session.machine.instances.get? h = some i ∨
    s.Runnable i ∧ (s.play h).session.machine.instances.get? h =
      some { i with state := .running, delay := i.delay - 1 } := by
  rcases s.held_or_runnable i with hstate | hheld | hrunnable
  · exact .inl ⟨hstate, get?_play_of_terminating hi hstate⟩
  · refine .inr (.inl ⟨hheld, ?_⟩)
    rw [play_of_held hi hheld]
    exact hi
  · refine .inr (.inr ⟨hrunnable, ?_⟩)
    rw [play_of_runnable hi hrunnable, run_of_delay hi hdelay]
    simp only [satOut]
    rw [InstanceTable.get?_modify, if_pos rfl, hi, Option.map_some]

theorem tick_delays (hlt : h < s.machine.instances.next)
    (hcount : s.machine.instances.next.toNat + s.tickHandles < UInt32.size)
    (hi : s.machine.instances.get? h = some i) (hdelay : i.delay ≠ 0) :
    InstanceTable.Delays h i (s.turnMoments s.machine.instances.handles) 1
      s.tick.machine.instances := by
  obtain ⟨s', hturn, hbefore, hlater⟩ := tick_seen hlt hcount hi
  obtain ⟨state, _, hi'⟩ := hbefore.live i hi
  have hidle : ∀ x, (x, h) ∈ s.turnMoments s.machine.instances.handles → x.slicing? h = none := by
    intro x hx
    rw [(hturn x).1 hx]
    exact slicing?_of_some hi' fun hslice => hdelay hslice.2
  rcases play_of_delay hi' hdelay with ⟨hstate, hnone⟩ | ⟨hheld, hsame⟩ | ⟨_, hless⟩
  · refine ⟨.inl (hlater.gone hnone), hidle, fun hrunning => ?_⟩
    have hrunning := hrunning s' _ ((hturn s').2 rfl) hi'
    rw [hstate] at hrunning
    cases hrunning
  · obtain ⟨state', _, hj⟩ := hlater.live _ hsame
    refine ⟨.inr ⟨0, _, Nat.zero_le 1, hj, i.satOut_state state'⟩, hidle, fun hrunning => ?_⟩
    have hrunning := hrunning s' _ ((hturn s').2 rfl) hi'
    rcases hheld with hstate | ⟨on, hstate, _⟩
    · rw [hstate] at hrunning
      cases hrunning
    · rw [hstate] at hrunning
      cases hrunning
  · obtain ⟨state', _, hj⟩ := hlater.live _ hless
    exact ⟨.inr ⟨1, _, le_refl 1, hj, ScriptInstance.satOut_one hdelay state'⟩, hidle,
      fun _ => ⟨_, hj, ScriptInstance.satOut_one hdelay state'⟩⟩

end Session

def Operation.isTick : Operation → Bool
  | .tick _ => true
  | _ => false

namespace Machine

/-- The number of ticks in a run. -/
def ticks (ops : List Operation) : Nat := ops.countP Operation.isTick

variable {m : Machine} {h : UInt32} {i : ScriptInstance}

theorem perform_delays {op : Operation} (hlt : h < m.instances.next)
    (hi : m.instances.get? h = some i) (hop : op.Continues)
    (hcount : m.instances.next.toNat + m.handlesFor op < UInt32.size)
    (hticks : ticks [op] ≤ i.delay.toNat) :
    InstanceTable.Delays h i (m.turnsOf op) (ticks [op]) (m.perform op).machine.instances := by
  have hspared : (∀ host, op ≠ .tick host) →
      InstanceTable.Delays h i [] 0 (m.perform op).machine.instances :=
    fun htick => (perform_spares hlt hop htick).delays hi
  cases op with
  | tick host =>
      refine Session.tick_delays (s := { machine := m, host }) hlt hcount hi ?_
      intro hzero
      rw [hzero] at hticks
      exact Nat.not_succ_le_zero 0 hticks
  | _ => exact hspared nofun

/-- While a run has no more ticks than the delay of an instance, the delay only counts turns. -/
theorem after_delays {ops : List Operation} (hlt : h < m.instances.next)
    (hi : m.instances.get? h = some i) (hops : ∀ op ∈ ops, op.Continues)
    (hcount : m.CountsOn ops) (hticks : ticks ops ≤ i.delay.toNat) :
    InstanceTable.Delays h i (m.turnMoments ops) (ticks ops) (m.after ops).instances := by
  -- the instance changes along the run, so it is general in the induction
  induction ops generalizing m i with
  | nil => exact (InstanceTable.Spares.refl m.instances h).delays hi
  | cons op ops ih =>
      rw [List.forall_mem_cons] at hops
      have hsum : ticks (op :: ops) = ticks [op] + ticks ops := by
        simp only [ticks, List.countP_cons, List.countP_nil]
        omega
      rw [hsum] at hticks ⊢
      have hfirst := perform_delays hlt hi hops.1 hcount.1 (by omega)
      have hlt' := (m.perform_advances hops.1).lt_next hcount.1 hlt
      rcases hfirst.rests with hnone | ⟨k, j, hk, hj, hsat⟩
      · obtain ⟨hgone, hturns⟩ := gone_throughout hlt' hnone hops.2 hcount.2
        refine ⟨.inl hgone, fun s hs => ?_, fun hrunning => ?_⟩
        · rcases List.mem_append.1 hs with hs | hs
          · exact hfirst.idle s hs
          · exact Session.slicing?_of_none (hturns _ hs)
        · obtain ⟨j, hj, _⟩ := hfirst.running fun s j hs => hrunning s j (List.mem_append_left _ hs)
          rw [hnone] at hj
          cases hj
      · have hrest := ih hlt' hj hops.2 hcount.2 (by have := hsat.delay; omega)
        refine ⟨?_, fun s hs => ?_, fun hrunning => ?_⟩
        · refine hrest.rests.imp_right fun ⟨k', j', hk', hj', hsat'⟩ => ?_
          exact ⟨k + k', j', by omega, hj', hsat.trans hsat'⟩
        · rcases List.mem_append.1 hs with hs | hs
          · exact hfirst.idle s hs
          · exact hrest.idle s hs
        · obtain ⟨j', hj', hexact⟩ :=
            hfirst.running fun s j hs => hrunning s j (List.mem_append_left _ hs)
          rw [hj] at hj'
          cases hj'
          obtain ⟨j', hj', hexact'⟩ :=
            hrest.running fun s j hs => hrunning s j (List.mem_append_right _ hs)
          exact ⟨j', hj', hexact.trans hexact'⟩

/-- A delay is never cut short.  Take a live instance under a handle below the counter, and a run of
requests, notifications and at most as many ticks as its delay, in which the counter does not start
over.  If the instance is still live it is the same but for its state and a delay that has lost at
most one a tick.  It has run no slice: each of its turns changed nothing, took one off the delay or
removed it.  If it was running whenever its turn came, it is live and
its delay has lost exactly one a tick; and when nothing of the delay is left, the next tick brings
it to its turn unchanged, where it runs a slice if it is running. -/
theorem delay_never_cut_short (m : Machine) (h : UInt32) (i : ScriptInstance)
    (ops : List Operation) (hfresh : m.instances.Fresh) (hi : m.instances.get? h = some i)
    (hops : ∀ op ∈ ops, op.Continues) (hcount : m.CountsOn ops)
    (hticks : ticks ops ≤ i.delay.toNat) :
    (∀ j, (m.after ops).instances.get? h = some j →
      ∃ state delay, j = { i with state, delay } ∧
        i.delay.toNat - ticks ops ≤ delay.toNat ∧ delay.toNat ≤ i.delay.toNat) ∧
    (∀ s, (s, h) ∈ m.turnMoments ops → s.slicing? h = none ∧ s.Passes h) ∧
    ((∀ s j, (s, h) ∈ m.turnMoments ops → s.machine.instances.get? h = some j →
        j.state = .running) →
      (∃ state delay, (m.after ops).instances.get? h = some { i with state, delay } ∧
        delay.toNat = i.delay.toNat - ticks ops) ∧
      (ticks ops = i.delay.toNat → ∀ host, (m.after ops).CountsOn [.tick host] →
        ∃ s state, (s, h) ∈ (m.after ops).turnMoments [.tick host] ∧
          s.machine.instances.get? h = some { i with state, delay := 0 } ∧
          (state = .running → s.play h = s.slice h { i with state := .running, delay := 0 }))) := by
  have hdelays := after_delays (hfresh h i hi) hi hops hcount hticks
  refine ⟨fun j hj => ?_, fun s hs => ?_, fun hrunning => ?_⟩
  · rcases hdelays.rests with hnone | ⟨k, j', hk, hj', state, delay, rfl, hsat⟩
    · rw [hnone] at hj
      cases hj
    · rw [hj'] at hj
      cases hj
      exact ⟨state, delay, rfl, by omega, by omega⟩
  · have hidle := hdelays.idle s hs
    exact ⟨hidle, Session.passes_of_slicing?_none hidle⟩
  · obtain ⟨j, hj, state, delay, rfl, hsat⟩ := hdelays.running hrunning
    refine ⟨⟨state, delay, hj, by omega⟩, fun hover host hnext => ?_⟩
    have hzero : delay = 0 := UInt32.toNat_inj.1 (show delay.toNat = 0 by omega)
    subst hzero
    have hafter : (m.after ops).instances.Fresh := fresh_after hfresh hcount
    obtain ⟨s, hturn, hbefore, _⟩ := Session.tick_seen (s := { machine := m.after ops, host })
      (hafter h _ hj) hnext.1 hj
    obtain ⟨state', _, hj'⟩ := hbefore.live _ hj
    refine ⟨s, state', List.mem_append_left _ ((hturn s).2 rfl), hj', ?_⟩
    rintro rfl
    exact Session.play_of_slicing? (Session.slicing?_eq_some_iff.2 ⟨hj', .inl rfl, rfl⟩)

/-- The second script of the waiting image, asleep, and the machine it is on. -/
def sleeper : ScriptInstance :=
  { ScriptInstance.new 1 ⟨2, 9, 0, false⟩ .zero .none with pc := 11, delay := 5 }

def sleeping : Machine := (new { openScriptDelay := 0 } 0).after waitingRun

/-- It is suspended and resumed between its ticks, sits out five of them and runs in the sixth. -/
theorem delay_never_cut_short_sleeping :
    let ops : List Operation := [.tick .new, .tick .new, .suspend 2 0, .start 2 0 .zero .none,
      .polyFinished 1, .tick .new, .tick .new, .tick .new]
    sleeping.instances.Fresh ∧ sleeping.instances.get? 2 = some sleeper ∧
    sleeping.CountsOn ops ∧ ticks ops = sleeper.delay.toNat ∧
    (sleeping.after ops).instances.get? 2 = some { sleeper with delay := 0 } ∧
    ∃ s, (s, 2) ∈ (sleeping.after ops).turnMoments [.tick .new] ∧
      s.play 2 = s.slice 2 { sleeper with delay := 0 } := by
  intro ops
  have hfresh : sleeping.instances.Fresh := checkNext_eq_ok_iff.1 (by decide +kernel)
  have hsleeper : sleeping.instances.get? 2 = some sleeper := by decide +kernel
  have hcount : sleeping.CountsOn ops := by decide +kernel
  have hops : ∀ op ∈ ops, op.Continues := by simp [ops, Operation.Continues]
  have hrunning : ∀ p ∈ sleeping.turnMoments ops, p.2 = 2 →
      ∀ j ∈ p.1.machine.instances.get? 2, j.state = .running := by decide +kernel
  obtain ⟨_, _, hexact⟩ := delay_never_cut_short sleeping 2 sleeper ops hfresh hsleeper hops hcount
    (le_refl 5)
  obtain ⟨_, hnext⟩ := hexact fun s j hs hj => hrunning (s, 2) hs rfl j hj
  obtain ⟨s, state, hs, hj, hslice⟩ := hnext rfl .new (by decide +kernel)
  have hstate : ∀ p ∈ (sleeping.after ops).turnMoments [.tick .new], p.2 = 2 →
      ∀ j ∈ p.1.machine.instances.get? 2, j.state = .running := by decide +kernel
  exact ⟨hfresh, hsleeper, hcount, rfl, by decide +kernel, s, hs,
    hslice (hstate (s, 2) hs rfl _ hj)⟩

end Machine

/-! ## Waiting without a delay -/

/-- Where the instance waits, it has no delay left. -/
def ScriptInstance.Prompt (i : ScriptInstance) : Prop := ∀ on, i.state = .waiting on → i.delay = 0

theorem ScriptInstance.Evolves.prompt {image : Image} {limit : UInt32} {i i' : ScriptInstance}
    (h : i.Evolves image limit i') (hi : i.Prompt) : i'.Prompt := by
  intro on hon
  cases h with
  | idle state delay hwait =>
      obtain ⟨hstate, hdelay⟩ := hwait on hon
      calc delay = i.delay := hdelay
        _ = 0 := hi on (hstate.symm.trans hon)
  | slice c hdelay _ =>
      -- the slice began running and without a delay, and writes only one of the two
      rcases (runSlice_keeps image limit { i with state := .running } c).pause with hstate | hsame
      · rw [hstate] at hon
        cases hon
      · exact hsame.trans hdelay

namespace InstanceTable

def Prompt (t : InstanceTable) : Prop := ∀ h i, t.get? h = some i → i.Prompt

theorem Prompt.of_get?_eq_none {t : InstanceTable} (h : ∀ k, t.get? k = none) : t.Prompt := by
  intro k i hi
  rw [h k] at hi
  cases hi

theorem Prompt.grow {image : Image} {limit : UInt32} {t t' : InstanceTable} {n : Nat}
    (ht : t.Prompt) (h : Grows image limit t n t') : t'.Prompt := by
  induction h with
  | refl => exact ht
  | evolve _ hevolves ih =>
      intro k i' hi'
      obtain ⟨i, hi, hi'⟩ := hevolves.get? k i' hi'
      exact hi'.prompt (ih k i hi)
  | insert delay _ _ _ ih =>
      intro k i hi
      rw [get?_insert] at hi
      split at hi
      · cases hi
        exact nofun
      · exact ih k i hi

end InstanceTable

namespace Machine

theorem Genuine.prompt {m : Machine} (hm : m.Genuine) : m.instances.Prompt := by
  induction hm with
  | new config entropy => exact .of_get?_eq_none fun _ => rfl
  | @perform m op _ hop ih =>
      by_cases hcontinues : op.Continues
      · exact ih.grow (m.perform_advances hcontinues).table
      · cases op with
        | load map bytes =>
            have hreset : (m.reset map (loadedImage bytes)).instances.Prompt :=
              .of_get?_eq_none fun _ => rfl
            simp only [Machine.perform]
            rw [machine_load]
            exact hreset.grow (enter_advances m map (sound_loadedImage bytes)).table
        | newGame => exact .of_get?_eq_none fun _ => rfl
        | restore bytes s => exact absurd rfl (hop bytes s)
        | _ => exact absurd trivial hcontinues
  | @restore m v bytes _ _ hm hv =>
      simp only [Machine.perform]
      split
      · exact hm
      · split
        · exact hm
        · rename_i m' journal hrestore
          obtain ⟨_, _, rfl, _⟩ := restore_eq_ok_iff.1 hrestore
          exact hv

/-- A waiting instance has no delay left, on every machine that comes about by operations of which
only snapshots of such machines are taken back.  So in every tick an instance whose wait is found
to be over in its turn runs a slice in that turn.  As long as the counter does not start over,
every instance that waits when the tick begins has its turn in it, and runs a slice then if it may
run, be it that its wait is over or that it was woken before. -/
theorem waiting_without_delay (m : Machine) (hm : m.Genuine) :
    (∀ h i on, m.instances.get? h = some i → i.state = .waiting on → i.delay = 0) ∧
    (∀ host s h i on, (s, h) ∈ m.turnMoments [.tick host] →
      s.machine.instances.get? h = some i → i.state = .waiting on → s.pending on = false →
      s.play h = s.slice h { i with state := .running }) ∧
    (m.instances.Fresh → ∀ host, m.CountsOn [.tick host] →
      ∀ h i on, m.instances.get? h = some i → i.state = .waiting on →
        ∃ s j, (s, h) ∈ m.turnMoments [.tick host] ∧ s.machine.instances.get? h = some j ∧
          (s.Runnable j → s.play h = s.slice h { j with state := .running })) := by
  have hprompt := hm.prompt
  refine ⟨fun h i on hi => hprompt h i hi on, fun host s h i on hs hi hon hover => ?_,
    fun hfresh host hcount h i on hi hon => ?_⟩
  · rw [turnMoments, turnMoments, List.append_nil] at hs
    obtain ⟨played, rest, _, rfl⟩ := Session.mem_turnMoments.1 hs
    have hadvances := Session.turns_advances { machine := m, host } played
    have hdelay := hprompt.grow hadvances.table h i hi on hon
    exact Session.play_of_slicing?
      (Session.slicing?_eq_some_iff.2 ⟨hi, .inr ⟨on, hon, hover⟩, hdelay⟩)
  · obtain ⟨s, hturn, hbefore, _⟩ := Session.tick_seen (s := { machine := m, host })
      (hfresh h i hi) hcount.1 hi
    obtain ⟨state, _, hj⟩ := hbefore.live i hi
    refine ⟨s, _, List.mem_append_left _ ((hturn s).2 rfl), hj, fun hrunnable => ?_⟩
    exact Session.play_of_slicing?
      (Session.slicing?_eq_some_iff.2 ⟨hj, hrunnable, hprompt h i hi on hon⟩)

/-- An image whose open script sleeps for a tick and then waits for a tag. -/
def tagWaitingImage : List UInt8 :=
  Word.join [0x534341, 28, 56, 1, 62, 7, 1, 1, 1001, 8, 0, 0]

/-- A machine restored while that script waits. -/
def tagWaiting : Machine :=
  let busy := Host.new.setTagBusy 7 true
  let saved := (new { openScriptDelay := 0 } 0).after
    [.load 1 tagWaitingImage, .tick busy, .tick busy, .tick busy]
  ((new {} 7).perform (.restore tagWaitingImage saved.snapshot)).machine

/-- The wait is found to be over in the first tick in which the tag is at rest. -/
theorem waiting_without_delay_tag :
    let waiter : ScriptInstance :=
      { ScriptInstance.new 0 ⟨1, 2, 0, true⟩ .zero .none with pc := 6, state := .waiting (.tag 7) }
    let s : Session := { machine := tagWaiting, host := .new }
    tagWaiting.Genuine ∧ tagWaiting.instances.get? 1 = some waiter ∧
    s.play 1 = s.slice 1 { waiter with state := .running } := by
  intro waiter s
  have hgenuine : tagWaiting.Genuine := by
    refine .restore tagWaitingImage (.new {} 7) ?_
    exact .perform (.perform (.perform (.perform (.new _ 0) nofun) nofun) nofun) nofun
  have hwaiter : tagWaiting.instances.get? 1 = some waiter := by decide +kernel
  have hturn : (s, 1) ∈ tagWaiting.turnMoments [.tick .new] := by
    have hhandles : tagWaiting.instances.handles = [1] := by decide +kernel
    rw [turnMoments, turnsOf, hhandles]
    exact List.mem_append_left _ List.mem_cons_self
  exact ⟨hgenuine, hwaiter,
    (waiting_without_delay tagWaiting hgenuine).2.1 .new s 1 waiter (.tag 7) hturn hwaiter rfl rfl⟩

end Machine

end MapScript
