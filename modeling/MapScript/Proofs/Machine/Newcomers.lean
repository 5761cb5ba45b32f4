import MapScript.Proofs.Machine.Bystanders

/-!
# Instances that a tick starts

The handles that requests take in a tick are consecutive, and none of them has a turn before the
next tick.  So an instance that a tick starts comes out of it as it was made, its state apart, and
no script runs two slices in one tick: `tick_newcomers`.
-/

namespace MapScript

namespace ScriptInstance

/-- The instance is the one that a request has started, before its first slice. -/
structure Unplayed (info : ScriptInfo) (r : ScriptRequest) (i : ScriptInstance) : Prop where
  number : i.number = r.script
  pc : i.pc = info.entry
  stack : i.stack = .empty
  locals : ∀ j, i.locals.get j = if j < min info.argCount 3 then r.args.toList.getD j 0 else 0
  delay : i.delay = 0
  trigger : i.trigger = r.trigger
  state : i.state = .running ∨ i.state = .suspended ∨ i.state = .terminating

/-- A request has three arguments at most, so that no more become variables. -/
theorem locals_new {r : ScriptRequest} {a b c : Int32} (hargs : r.args = #v[a, b, c, 0, 0])
    (definition : Nat) (info : ScriptInfo) (j : Nat) :
    (new definition info r.args r.trigger).locals.get j =
      if j < min info.argCount 3 then r.args.toList.getD j 0 else 0 := by
  have hroom : VarScope.capacity .script = 10 := rfl
  have hzero : 3 ≤ j → r.args.toList.getD j 0 = 0 := by
    intro hj
    rw [hargs]
    match j with
    | 3 | 4 | j + 5 => rfl
  have htake : (r.args.toList.take info.argCount).getD j 0 =
      if j < info.argCount then r.args.toList.getD j 0 else 0 := by
    rw [List.getD_eq_getElem?_getD, List.getElem?_take, List.getD_eq_getElem?_getD]
    split <;> rfl
  rw [new, VarStore.get_ofList, hroom, htake]
  by_cases hj : j < 3
  · have hmin : j < min info.argCount 3 ↔ j < info.argCount := by omega
    rw [if_pos (by omega), if_congr hmin rfl rfl]
  · rw [hzero (by omega), ite_self, ite_self, ite_self]

theorem unplayed_new {image : Image} {r : ScriptRequest} {definition : Nat} {info : ScriptInfo}
    {state : ScriptState} {a b c : Int32} (hargs : r.args = #v[a, b, c, 0, 0])
    (hscript : image.findScript? r.script = some (definition, info))
    (hstate : ∀ on, state ≠ .waiting on) :
    Unplayed info r { new definition info r.args r.trigger with state } := by
  refine ⟨(Image.findScript?_eq_some hscript).2, rfl, rfl, locals_new hargs definition info, rfl,
    rfl, ?_⟩
  cases state with
  | running => exact .inl rfl
  | suspended => exact .inr (.inl rfl)
  | terminating => exact .inr (.inr rfl)
  | waiting on => exact absurd rfl (hstate on)

end ScriptInstance

namespace Serving

/-- The request starts a script. -/
def starts (x : Serving) : Bool := (x.machine.serve x.request).answer = .ok .started

/-- The handle that a script started by the request gets. -/
def handle (x : Serving) : UInt32 := x.machine.instances.next

theorem handles_serve (x : Serving) :
    (x.machine.serve x.request).handles = if x.starts then 1 else 0 := by
  rw [Reply.handles, starts]
  split
  · rename_i hanswer
    rw [hanswer]
    rfl
  · rename_i hanswer
    rw [decide_eq_false hanswer]
    rfl

end Serving

/-- The table has the instance that the request has started, as it was made but for its state. -/
def InstanceTable.Welcomes (t : InstanceTable) (x : Serving) : Prop :=
  ∃ definition info state, x.machine.image.findScript? x.request.script = some (definition, info) ∧
    (∀ on, state ≠ .waiting on) ∧ t.get? x.handle =
      some { ScriptInstance.new definition info x.request.args x.request.trigger with state }

theorem InstanceTable.Welcomes.spare {t t' : InstanceTable} {x : Serving} (h : t.Welcomes x)
    (hspares : t.Spares x.handle t') : t'.Welcomes x := by
  obtain ⟨definition, info, state, hscript, hstate, hget⟩ := h
  obtain ⟨state', hsways, hget'⟩ := hspares.live _ hget
  exact ⟨definition, info, state', hscript, fun on hon => hstate on (hsways.waiting on hon), hget'⟩

namespace Serving

theorem welcomes {x : Serving} (hx : x.starts = true) :
    (x.machine.serve x.request).machine.instances.Welcomes x := by
  obtain ⟨_, _, definition, info, hscript, hinsert⟩ :=
    Machine.serve_eq_started (of_decide_eq_true hx)
  refine ⟨definition, info, .running, hscript, nofun, ?_⟩
  rw [hinsert, InstanceTable.get?_insert, handle, if_pos rfl]
  rfl

end Serving

namespace Session

/-! ## Handles in order -/

theorem toNat_handles_servings {s : Session} {requests : List ScriptRequest}
    (hcount : s.machine.instances.next.toNat + s.requestHandles requests < UInt32.size) :
    ((s.servings requests).filter Serving.starts).map (·.handle.toNat) =
      List.range' s.machine.instances.next.toNat (s.requestHandles requests) := by
  induction requests generalizing s with
  | nil => rfl
  | cons r rest ih =>
      obtain ⟨hfirst, hrest⟩ := (s.machine.serve_advances r).counts hcount
      have hnext : (s.serve r).machine.instances.next.toNat =
          s.machine.instances.next.toNat + (s.machine.serve r).handles :=
        (s.machine.serve_advances r).toNat_next hfirst
      have hlater := ih (s := s.serve r) hrest
      have hhandles : (s.machine.serve r).handles = _ := Serving.handles_serve ⟨s.machine, r⟩
      rw [requestHandles, ← List.range'_append_1, ← hnext, ← hlater, hhandles, servings,
        List.filter_cons]
      split
      · rfl
      · rfl

theorem toNat_handles_turnsServings {s : Session} {handles : List UInt32}
    (hcount : s.machine.instances.next.toNat + s.turnsHandles handles < UInt32.size) :
    ((s.turnsServings handles).filter Serving.starts).map (·.handle.toNat) =
      List.range' s.machine.instances.next.toNat (s.turnsHandles handles) := by
  induction handles generalizing s with
  | nil => rfl
  | cons h rest ih =>
      obtain ⟨hfirst, hrest⟩ := (s.turn_advances h).counts hcount
      have hnext := (s.turn_advances h).toNat_next hfirst
      have hlater := ih (s := s.turn h) hrest
      rw [← (s.play_plays h).next] at hfirst
      have hturn := toNat_handles_servings hfirst
      rw [turnsHandles, ← List.range'_append_1, ← hnext, ← hlater, turnHandles,
        ← (s.play_plays h).next, ← hturn, ← List.map_append, ← List.filter_append]
      rfl

/-! ## Who comes and stays -/

theorem serveAll_welcomes {s : Session} {requests : List ScriptRequest}
    (hcount : s.machine.instances.next.toNat + s.requestHandles requests < UInt32.size)
    {x : Serving} (hx : x ∈ s.servings requests) (hstarts : x.starts = true) :
    (requests.foldl serve s).machine.instances.Welcomes x := by
  induction requests generalizing s with
  | nil => cases hx
  | cons r rest ih =>
      obtain ⟨hfirst, hrest⟩ := (s.machine.serve_advances r).counts hcount
      rcases List.mem_cons.1 hx with rfl | hx
      · -- the requests after it can only change its state
        have hone : (s.machine.serve r).handles = 1 := by
          rw [Serving.handles_serve ⟨s.machine, r⟩, hstarts, if_pos rfl]
        have hnext := (s.machine.serve_advances r).toNat_next hfirst
        have hlt : s.machine.instances.next < (s.serve r).machine.instances.next := by
          rw [UInt32.lt_iff_toNat_lt, serve, hnext]
          omega
        exact (Serving.welcomes hstarts).spare (serveAll_spares hlt hrest)
      · exact ih hrest hx

theorem mem_handles_turnServings {s : Session} {h : UInt32}
    (hcount : s.machine.instances.next.toNat + s.turnHandles h < UInt32.size)
    {x : Serving} (hx : x ∈ s.turnServings h) (hstarts : x.starts = true) :
    s.machine.instances.next ≤ x.handle ∧ x.handle < (s.turn h).machine.instances.next := by
  have hnext := (s.turn_advances h).toNat_next hcount
  rw [turnHandles, ← (s.play_plays h).next] at hcount
  have hmem : x.handle.toNat ∈ ((s.turnServings h).filter Serving.starts).map (·.handle.toNat) :=
    List.mem_map_of_mem (List.mem_filter.2 ⟨hx, hstarts⟩)
  rw [turnServings, toNat_handles_servings hcount, List.mem_range'_1, (s.play_plays h).next] at hmem
  rw [UInt32.le_iff_toNat_le, UInt32.lt_iff_toNat_lt, hnext, turnHandles]
  exact hmem

theorem turns_welcomes {s : Session} {handles : List UInt32}
    (hcount : s.machine.instances.next.toNat + s.turnsHandles handles < UInt32.size)
    (hbelow : ∀ k ∈ handles, k < s.machine.instances.next)
    {x : Serving} (hx : x ∈ s.turnsServings handles) (hstarts : x.starts = true) :
    (handles.foldl turn s).machine.instances.Welcomes x := by
  induction handles generalizing s with
  | nil => cases hx
  | cons h rest ih =>
      obtain ⟨hfirst, hrest⟩ := (s.turn_advances h).counts hcount
      rw [List.forall_mem_cons] at hbelow
      rw [turnsServings, turnMoments, List.flatMap_cons, List.mem_append] at hx
      rcases hx with hx | hx
      · obtain ⟨hle, hlt⟩ := mem_handles_turnServings hfirst hx hstarts
        -- its handle is not among those that still have a turn
        have hnot : x.handle ∉ rest := fun hmem => UInt32.not_lt.2 hle (hbelow.2 _ hmem)
        have hturn : (s.turn h).machine.instances.Welcomes x := by
          rw [turnHandles, ← (s.play_plays h).next] at hfirst
          exact serveAll_welcomes hfirst hx hstarts
        exact hturn.spare (turns_spares hlt hnot hrest)
      · exact ih hrest (fun k hk => (s.turn_advances h).lt_next hfirst (hbelow.2 k hk)) hx

/-- A request that is served in a turn was raised by the slice of the instance whose turn it is. -/
theorem raised_of_mem_turnServings {s : Session} {h : UInt32} {x : Serving}
    (hx : x ∈ s.turnServings h) :
    ∃ raiser, s.slicing? h = some raiser ∧
      x.request ∈ (s.sliced raiser).context.requests.toList ∧
      x.request.trigger = raiser.trigger ∧ ∃ a b c, x.request.args = #v[a, b, c, 0, 0] := by
  have hmem := request_mem_of_mem_servings hx
  cases hslicing : s.slicing? h with
  | none =>
      rw [requests_of_slicing?_none hslicing] at hmem
      cases hmem
  | some raiser =>
      rw [play_of_slicing? hslicing, requests_slice] at hmem
      refine ⟨raiser, rfl, hmem, ?_⟩
      rw [sliced, runSlice, requests_sliceFrom] at hmem
      obtain ⟨special, hspecial, hrequest⟩ := List.mem_filterMap.1 hmem
      have htrigger := trigger_specialsFrom hspecial
      exact ⟨(special.trigger_of_request? hrequest).trans htrigger,
        special.args_of_request? hrequest⟩

theorem machine_of_mem_turnsServings {s : Session} {handles : List UInt32} {x : Serving}
    (hcount : s.machine.instances.next.toNat + s.turnsHandles handles < UInt32.size)
    (hx : x ∈ s.turnsServings handles) :
    x.machine.image = s.machine.image ∧ x.machine.map = s.machine.map := by
  refine (holds_turns (P := fun m => m.image = s.machine.image ∧ m.map = s.machine.map)
    ?_ ?_ hcount ⟨rfl, rfl⟩).2.2 x hx
  · intro m r _ hm
    rw [(m.serve_advances r).image, (m.serve_advances r).map]
    exact hm
  · intro s' h hs'
    rw [(s'.play_advances h).image, (s'.play_advances h).map]
    exact hs'

/-! ## A tick -/

/-- The requests of a tick that start scripts, in the order they are served. -/
def started (s : Session) : List Serving :=
  (s.turnsServings s.machine.instances.handles).filter Serving.starts

/-- The instances that run a slice in a tick, each as it is before its turn. -/
def slices (s : Session) : List ScriptInstance :=
  (s.turnMoments s.machine.instances.handles).filterMap fun p => p.1.slicing? p.2

section

variable {s : Session} (hcount : s.machine.instances.next.toNat + s.tickHandles < UInt32.size)
include hcount

theorem toNat_handles_started :
    s.started.map (·.handle.toNat) = List.range' s.machine.instances.next.toNat s.tickHandles :=
  toNat_handles_turnsServings hcount

theorem next_le_handle {x : Serving} (hx : x ∈ s.started) :
    s.machine.instances.next ≤ x.handle := by
  have hmem : x.handle.toNat ∈ s.started.map (·.handle.toNat) := List.mem_map_of_mem hx
  rw [toNat_handles_started hcount, List.mem_range'_1] at hmem
  exact UInt32.le_iff_toNat_le.2 hmem.1

theorem ascending_started : (s.started.map Serving.handle).Pairwise (· < ·) := by
  have hrange : (s.started.map (·.handle.toNat)).Pairwise (· < ·) := by
    rw [toNat_handles_started hcount]
    exact List.pairwise_lt_range' 1
  rw [List.pairwise_map] at hrange ⊢
  exact hrange.imp UInt32.lt_iff_toNat_lt.2

variable (hfresh : s.machine.instances.Fresh)
include hfresh

theorem tick_welcomes {x : Serving} (hx : x ∈ s.started) :
    s.tick.machine.instances.Welcomes x := by
  obtain ⟨hserved, hstarts⟩ := List.mem_filter.1 hx
  exact turns_welcomes hcount (fun _ => hfresh.lt_of_mem_handles) hserved hstarts

/-- What a tick leaves live was live before it, or the tick has started it. -/
theorem mem_handles_tick {k : UInt32} (hk : k ∈ s.tick.machine.instances.handles) :
    k ∈ s.machine.instances.handles ∨ k ∈ s.started.map Serving.handle := by
  by_cases hlt : k < s.machine.instances.next
  · left
    by_contra hnot
    have hnone := (s.machine.instances.not_mem_handles_iff k).1 hnot
    have hgone := (turns_spares hlt hnot hcount).gone hnone
    exact (s.tick.machine.instances.not_mem_handles_iff k).2 hgone hk
  · right
    have hend := (hfresh.grow s.tick_advances.table hcount).lt_of_mem_handles hk
    rw [UInt32.lt_iff_toNat_lt, s.tick_advances.toNat_next hcount] at hend
    rw [UInt32.not_lt, UInt32.le_iff_toNat_le] at hlt
    have hmem : k.toNat ∈ s.started.map (·.handle.toNat) := by
      rw [toNat_handles_started hcount, List.mem_range'_1]
      exact ⟨hlt, hend⟩
    obtain ⟨x, hx, heq⟩ := List.mem_map.1 hmem
    exact List.mem_map.2 ⟨x, hx, UInt32.toNat_inj.1 heq⟩

/-- After a tick the handles are those that are left of the old ones and then the new ones. -/
theorem handles_tick :
    s.tick.machine.instances.handles =
      s.machine.instances.handles.filter (· ∈ s.tick.machine.instances.handles) ++
        s.started.map Serving.handle := by
  apply s.tick.machine.instances.ascending_handles.eq_of_mem_iff
  · refine List.pairwise_append.2 ⟨s.machine.instances.ascending_handles.filter _,
      ascending_started hcount, fun k hk k' hk' => ?_⟩
    obtain ⟨x, hx, rfl⟩ := List.mem_map.1 hk'
    have hlt := hfresh.lt_of_mem_handles (List.mem_filter.1 hk).1
    exact UInt32.lt_of_lt_of_le hlt (next_le_handle hcount hx)
  · intro k
    rw [List.mem_append, List.mem_filter, decide_eq_true_iff]
    constructor
    · intro hk
      exact (mem_handles_tick hcount hfresh hk).imp (⟨·, hk⟩) id
    · rintro (⟨_, hk⟩ | hk)
      · exact hk
      · obtain ⟨x, hx, rfl⟩ := List.mem_map.1 hk
        obtain ⟨_, _, _, _, _, hget⟩ := tick_welcomes hcount hfresh hx
        exact (s.tick.machine.instances.mem_handles_iff x.handle).2 ⟨_, hget⟩

theorem filter_handles_tick :
    s.tick.machine.instances.handles.filter (· ∉ s.machine.instances.handles) =
      s.started.map Serving.handle := by
  have hold : (s.machine.instances.handles.filter
      (· ∈ s.tick.machine.instances.handles)).filter (· ∉ s.machine.instances.handles) = [] := by
    apply List.filter_eq_nil_iff.2
    intro k hk
    simpa using (List.mem_filter.1 hk).1
  have hnew : (s.started.map Serving.handle).filter (· ∉ s.machine.instances.handles) =
      s.started.map Serving.handle := by
    apply List.filter_eq_self.2
    intro k hk
    obtain ⟨x, hx, rfl⟩ := List.mem_map.1 hk
    apply decide_eq_true
    intro hmem
    exact UInt32.not_lt.2 (next_le_handle hcount hx) (hfresh.lt_of_mem_handles hmem)
  rw [handles_tick hcount hfresh, List.filter_append, hold, hnew, List.nil_append]

/-- Who has asked for an instance that a tick starts, and what becomes of it. -/
theorem unplayed_of_mem_started {x : Serving} (hx : x ∈ s.started) :
    x.request.kind = .execute ∧ (x.request.map = 0 ∨ x.request.map = s.machine.map) ∧
    ∃ p ∈ s.turnMoments s.machine.instances.handles, x ∈ p.1.turnServings p.2 ∧
    ∃ raiser, p.1.slicing? p.2 = some raiser ∧
      x.request ∈ (p.1.sliced raiser).context.requests.toList ∧
    ∃ i info, s.tick.machine.instances.get? x.handle = some i ∧
      s.machine.image.findScript? x.request.script = some (i.definition, info) ∧
      i.Unplayed info x.request ∧ i.trigger = raiser.trigger := by
  obtain ⟨hserved, hstarts⟩ := List.mem_filter.1 hx
  obtain ⟨himage, hmap⟩ := machine_of_mem_turnsServings hcount hserved
  obtain ⟨hkind, hhere, _⟩ := Machine.serve_eq_started (of_decide_eq_true hstarts)
  obtain ⟨p, hp, hraised⟩ := List.mem_flatMap.1 hserved
  obtain ⟨raiser, hslicing, hrequest, htrigger, a, b, c, hargs⟩ :=
    raised_of_mem_turnServings hraised
  obtain ⟨definition, info, state, hscript, hstate, hget⟩ := tick_welcomes hcount hfresh hx
  rw [himage] at hscript
  rw [Machine.isElsewhere_eq_false_iff, hmap] at hhere
  exact ⟨hkind, hhere, p, hp, hraised, raiser, hslicing, hrequest, _, info, hget, hscript,
    ScriptInstance.unplayed_new hargs hscript hstate, htrigger⟩

/-- The script that runs a slice is the one under the handle before the tick. -/
theorem number_of_slicing? {p : Session × UInt32} {i : ScriptInstance}
    (hp : p ∈ s.turnMoments s.machine.instances.handles) (hi : p.1.slicing? p.2 = some i) :
    ∃ j, s.machine.instances.get? p.2 = some j ∧ j.number = i.number := by
  have hmem : p.2 ∈ s.machine.instances.handles := by
    rw [← s.map_snd_turnMoments s.machine.instances.handles]
    exact List.mem_map_of_mem hp
  obtain ⟨j, hj⟩ := (s.machine.instances.mem_handles_iff p.2).1 hmem
  obtain ⟨s', honly, hspares, _⟩ := tick_seen (hfresh p.2 j hj) hcount hj
  obtain ⟨state, _, hj'⟩ := hspares.live j hj
  have hget := (slicing?_eq_some_iff.1 hi).1
  rw [(honly p.1).1 hp, hj'] at hget
  cases hget
  exact ⟨j, hj, rfl⟩

theorem nodup_slices (hdistinct : s.machine.instances.Distinct) :
    (s.slices.map (·.number)).Nodup := by
  have hturns : (s.turnMoments s.machine.instances.handles).Pairwise (·.2 ≠ ·.2) := by
    have hnodup := s.machine.instances.nodup_handles
    rw [← s.map_snd_turnMoments s.machine.instances.handles, List.Nodup,
      List.pairwise_map] at hnodup
    exact hnodup
  rw [slices, List.Nodup, List.pairwise_map, List.pairwise_filterMap]
  refine hturns.imp_of_mem fun {p q} hp hq hne i hi j hj heq => hne ?_
  obtain ⟨i₀, hi₀, hi⟩ := number_of_slicing? hcount hfresh hp hi
  obtain ⟨j₀, hj₀, hj⟩ := number_of_slicing? hcount hfresh hq hj
  apply hdistinct p.2 q.2 i₀ j₀ hi₀ hj₀
  rw [hi, hj]
  exact heq

end

/-- Scripts that a tick starts first run in the next one, in the order they were started.  As long
as the counter does not start over, the handles that are new after a tick count up from where it
stood, one for each request that a slice of the tick raised, for the loaded map or for no map, and
that started a script.  The instances under them are as they were made, but that later requests
may have set their state; the trigger is that of the instance that asked.  Their turns come in the
next tick, after the others and in the order of the requests.  A turn without a slice leaves host,
variables, message and generator alone, and one with a slice leaves them as that slice did; so,
where no script has two instances, none runs two slices in a tick. -/
theorem tick_newcomers (s : Session) (hfresh : s.machine.instances.Fresh)
    (hcount : s.machine.instances.next.toNat + s.tickHandles < UInt32.size) :
    let before := s.machine.instances
    let after := s.tick.machine.instances
    after.handles.filter (· ∉ before.handles) = s.started.map Serving.handle ∧
    s.started.map (·.handle.toNat) = List.range' before.next.toNat s.started.length ∧
    (∀ x ∈ s.started,
      x.request.kind = .execute ∧ (x.request.map = 0 ∨ x.request.map = s.machine.map) ∧
      ∃ p ∈ s.turnMoments before.handles, x ∈ p.1.turnServings p.2 ∧
      ∃ raiser, p.1.slicing? p.2 = some raiser ∧
        x.request ∈ (p.1.sliced raiser).context.requests.toList ∧
      ∃ i info, after.get? x.handle = some i ∧
        s.machine.image.findScript? x.request.script = some (i.definition, info) ∧
        i.Unplayed info x.request ∧ i.trigger = raiser.trigger) ∧
    (∀ host, (turnMoments { machine := s.tick.machine, host } after.handles).map Prod.snd =
      before.handles.filter (· ∈ after.handles) ++ s.started.map Serving.handle) ∧
    (∀ p ∈ s.turnMoments before.handles,
      (p.1.slicing? p.2 = none → (p.1.turn p.2).context = p.1.context) ∧
      ∀ i, p.1.slicing? p.2 = some i → (p.1.turn p.2).context =
        { (p.1.sliced i).context with requests := #[], journal := #[] }) ∧
    (before.Distinct → (s.slices.map (·.number)).Nodup) := by
  intro before after
  have hlength : s.started.length = s.tickHandles := by
    have hrange := congrArg List.length (toNat_handles_started hcount)
    rw [List.length_map, List.length_range'] at hrange
    exact hrange
  refine ⟨filter_handles_tick hcount hfresh, ?_,
    fun x hx => unplayed_of_mem_started hcount hfresh hx, fun host => ?_, fun p _ => ⟨?_, ?_⟩,
    nodup_slices hcount hfresh⟩
  · rw [hlength]
    exact toNat_handles_started hcount
  · rw [map_snd_turnMoments]
    exact handles_tick hcount hfresh
  · exact fun hnone => (passes_of_slicing?_none hnone).context
  · exact fun i hi => context_turn hi

/-- An image whose first script starts the second, with three arguments of the four that it
declares, and itself, and ends. -/
def restartingImage : List UInt8 :=
  Word.join [0x534341, 60, 13, 80, 2, 0, 7, 8, 9, 10, 80, 1, 0, 1, 1, 2, 1, 8, 0, 2, 56, 4, 0]

def restarting : Session where
  machine := (Machine.new {} 0).after
    [.load 1 restartingImage, .start 1 0 .zero ⟨some 5, some 2, .back⟩]
  host := .new

/-- The script that has started itself again does not run a second slice. -/
theorem tick_newcomers_restarting :
    let before := restarting.machine.instances
    let after := restarting.tick.machine.instances
    before.Fresh ∧ before.Distinct ∧
    before.next.toNat + restarting.tickHandles < UInt32.size ∧ before.handles = [1] ∧
    restarting.started.map (fun x => (x.handle, x.request.script)) = [(2, 2), (3, 1)] ∧
    after.handles.filter (· ∉ before.handles) = [2, 3] ∧
    (∀ x ∈ restarting.started, ∃ i info, after.get? x.handle = some i ∧
      i.Unplayed info x.request) ∧
    restarting.slices.map (·.number) = [1] ∧ (restarting.slices.map (·.number)).Nodup := by
  intro before after
  have hfresh : before.Fresh := Machine.checkNext_eq_ok_iff.1 (by decide +kernel)
  have hdistinct : before.Distinct := (Machine.wellFormed_after_new _ _ _).table.unique
  have hcount : before.next.toNat + restarting.tickHandles < UInt32.size := by decide +kernel
  obtain ⟨hnew, _, hstarted, _, _, hslices⟩ := tick_newcomers restarting hfresh hcount
  refine ⟨hfresh, hdistinct, hcount, by decide +kernel, by decide +kernel, ?_, fun x hx => ?_,
    by decide +kernel, hslices hdistinct⟩
  · rw [hnew]
    decide +kernel
  · obtain ⟨_, _, _, _, _, _, _, _, i, info, hget, _, hunplayed, _⟩ := hstarted x hx
    exact ⟨i, info, hget, hunplayed⟩

end Session

end MapScript
