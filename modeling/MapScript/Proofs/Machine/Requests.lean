import MapScript.Proofs.Machine.Invariants

/-!
# What requests do to live instances

A request changes at most the state of one live instance, the oldest of the script it names, and
otherwise starts a fresh one.  So of a whole list of requests a live instance only sees those that
reach it, and they only change its state.
-/

namespace MapScript

/-- What a request of a kind makes of the state of the instance it reaches. -/
def ScriptState.asked : ScriptState → ActionKind → ScriptState
  | .suspended, .execute => .running
  | state, .execute => state
  | .terminating, .suspend => .terminating
  | _, .suspend => .suspended
  | _, .terminate => .terminating

namespace ScriptState

/-- No request sets an instance waiting. -/
theorem eq_waiting_of_asked {state : ScriptState} {kind : ActionKind} {on : Awaited}
    (h : state.asked kind = .waiting on) : state = .waiting on := by
  cases kind <;> cases state <;> simp_all [asked]

/-- A start changes no state but that of a suspended instance. -/
theorem asked_execute {state : ScriptState} (h : state ≠ .suspended) :
    state.asked .execute = state := by
  cases state <;> simp_all [asked]

/-- The state after requests that reach the instance in order. -/
def afterRequests (state : ScriptState) (requests : List ScriptRequest) : ScriptState :=
  requests.foldl (fun state r => state.asked r.kind) state

theorem eq_waiting_of_afterRequests {requests : List ScriptRequest} {state : ScriptState}
    {on : Awaited} (h : state.afterRequests requests = .waiting on) : state = .waiting on := by
  induction requests generalizing state with
  | nil => exact h
  | cons r rest ih => exact eq_waiting_of_asked (ih h)

theorem afterRequests_of_execute {requests : List ScriptRequest} {state : ScriptState}
    (hstate : state ≠ .suspended) (h : ∀ r ∈ requests, r.kind = .execute) :
    state.afterRequests requests = state := by
  induction requests with
  | nil => rfl
  | cons r rest ih =>
      rw [afterRequests, List.foldl_cons, h r List.mem_cons_self, asked_execute hstate]
      exact ih fun r' hr' => h r' (List.mem_cons_of_mem _ hr')

end ScriptState

namespace Machine

/-- A request reaches the instance under a handle: it names the loaded map and a script whose oldest
instance is that one, and where it is a start the script is declared. -/
def Reaches (m : Machine) (r : ScriptRequest) (k : UInt32) : Prop :=
  m.isElsewhere r.map = false ∧ m.instances.findHandle? r.script = some k ∧
    (r.kind = .execute → (m.image.findScript? r.script).isSome)

instance (m : Machine) (r : ScriptRequest) (k : UInt32) : Decidable (m.Reaches r k) :=
  inferInstanceAs (Decidable (_ ∧ _ ∧ _))

/-- What serving a request can make of the table: nothing, where it reaches no live instance; a
fresh instance under the next handle, where its script has none; or another state of the instance
it reaches. -/
inductive Serves (m : Machine) (r : ScriptRequest) : InstanceTable → Prop
  | ignored (hnone : ∀ k, ¬ m.Reaches r k) : Serves m r m.instances
  | started (definition : Nat) (info : ScriptInfo) (hnone : ∀ k, ¬ m.Reaches r k) :
      Serves m r (m.instances.insert (.new definition info r.args r.trigger))
  | reached {h : UInt32} {i : ScriptInstance} (hreaches : m.Reaches r h)
      (hi : m.instances.get? h = some i) :
      Serves m r (m.instances.setState h (i.state.asked r.kind))

theorem Serves.setState {m : Machine} {r : ScriptRequest} {h : UInt32} {i : ScriptInstance}
    {state : ScriptState} (hreaches : m.Reaches r h) (hi : m.instances.get? h = some i)
    (hstate : i.state.asked r.kind = state) : m.Serves r (m.instances.setState h state) := by
  rw [← hstate]
  exact .reached hreaches hi

/-- A request that leaves the state of the instance it reaches as it is. -/
theorem Serves.unchanged {m : Machine} {r : ScriptRequest} {h : UInt32} {i : ScriptInstance}
    (hreaches : m.Reaches r h) (hi : m.instances.get? h = some i)
    (hstate : i.state.asked r.kind = i.state) : m.Serves r m.instances := by
  have hreached := Serves.setState hreaches hi hstate
  rw [InstanceTable.setState_self hi] at hreached
  exact hreached

variable {m : Machine}

theorem not_reaches_of_find? {r : ScriptRequest} (hfind : m.instances.find? r.script = none)
    (k : UInt32) : ¬ m.Reaches r k := by
  rintro ⟨_, hfound, _⟩
  rw [InstanceTable.findHandle?_eq_none_iff.2 hfind] at hfound
  cases hfound

theorem reaches_of_find? {r : ScriptRequest} {h : UInt32} {i : ScriptInstance}
    (hhere : m.isElsewhere r.map = false) (hfind : m.instances.find? r.script = some (h, i))
    (hdeclared : r.kind = .execute → (m.image.findScript? r.script).isSome) : m.Reaches r h := by
  refine ⟨hhere, ?_, hdeclared⟩
  rw [InstanceTable.findHandle?, hfind, Option.map_some]

theorem Reaches.script_eq {r : ScriptRequest} {k : UInt32} {i : ScriptInstance}
    (h : m.Reaches r k) (hi : m.instances.get? k = some i) : r.script = i.number := by
  obtain ⟨⟨j, hj, hnumber⟩, _⟩ := InstanceTable.findHandle?_eq_some_iff.1 h.2.1
  rw [hi] at hj
  cases hj
  exact hnumber.symm

section

variable {r : ScriptRequest} (hhere : m.isElsewhere r.map = false)
include hhere

theorem startHere_serves (hkind : r.kind = .execute) :
    m.Serves r (m.startHere r.script r.args r.trigger).machine.instances := by
  unfold startHere
  split
  · rename_i hscript
    refine .ignored fun k hreaches => ?_
    have hdeclared := hreaches.2.2 hkind
    rw [hscript] at hdeclared
    cases hdeclared
  · rename_i definition info hscript
    split
    · rename_i hfind
      exact .started definition info (not_reaches_of_find? hfind)
    · rename_i h i hfind
      have hreaches : m.Reaches r h :=
        reaches_of_find? hhere hfind fun _ => by rw [hscript]; rfl
      have hi := (InstanceTable.get?_of_find? hfind).1
      split
      · rename_i hstate
        exact .setState hreaches hi (by rw [hstate, hkind]; rfl)
      · rename_i hstate
        exact .unchanged hreaches hi (by rw [hkind, ScriptState.asked_execute hstate])

theorem suspendHere_serves (hkind : r.kind = .suspend) :
    m.Serves r (m.suspendHere r.script).machine.instances := by
  unfold suspendHere
  split
  · rename_i hfind
    exact .ignored (not_reaches_of_find? hfind)
  · rename_i h i hfind
    have hreaches : m.Reaches r h := reaches_of_find? hhere hfind fun hexecute => by
      rw [hkind] at hexecute
      cases hexecute
    have hi := (InstanceTable.get?_of_find? hfind).1
    split
    · rename_i hstate
      exact .unchanged hreaches hi (by rw [hstate, hkind]; rfl)
    · rename_i hstate
      exact .unchanged hreaches hi (by rw [hstate, hkind]; rfl)
    · rename_i _ hterminating
      refine .setState hreaches hi ?_
      rw [hkind]
      cases hstate : i.state with
      | terminating => exact absurd hstate hterminating
      | _ => rfl

theorem terminateHere_serves (hkind : r.kind = .terminate) :
    m.Serves r (m.terminateHere r.script).machine.instances := by
  unfold terminateHere
  split
  · rename_i hfind
    exact .ignored (not_reaches_of_find? hfind)
  · rename_i h i hfind
    have hreaches : m.Reaches r h := reaches_of_find? hhere hfind fun hexecute => by
      rw [hkind] at hexecute
      cases hexecute
    have hi := (InstanceTable.get?_of_find? hfind).1
    have hasked : i.state.asked r.kind = .terminating := by
      rw [hkind]
      cases i.state <;> rfl
    split
    · rename_i hstate
      exact .unchanged hreaches hi (by rw [hasked, hstate])
    · exact .setState hreaches hi hasked

end

theorem defer_serves {r : ScriptRequest} (action : DeferredAction)
    (helsewhere : m.isElsewhere r.map = true) :
    m.Serves r (m.defer action).machine.instances := by
  refine .ignored fun k hreaches => ?_
  rw [hreaches.1] at helsewhere
  cases helsewhere

theorem serve_serves (m : Machine) (r : ScriptRequest) :
    m.Serves r (m.serve r).machine.instances := by
  unfold serve start suspend terminate
  cases helsewhere : m.isElsewhere r.map with
  | true =>
      cases r.kind <;> exact defer_serves _ helsewhere
  | false =>
      cases hkind : r.kind with
      | execute => exact startHere_serves helsewhere hkind
      | suspend => exact suspendHere_serves helsewhere hkind
      | terminate => exact terminateHere_serves helsewhere hkind

/-! ## What requests leave alone -/

section

variable {m' m'' : Machine}

/-- Only the instances and the waiting actions have changed. -/
def Manages (m m' : Machine) : Prop :=
  m' = { m with instances := m'.instances, deferred := m'.deferred }

theorem Manages.trans (h : m.Manages m') (h' : m'.Manages m'') : m.Manages m'' := by
  rw [Manages, h', h]

theorem Manages.worldVars (h : m.Manages m') : m'.worldVars = m.worldVars := by
  rw [h]

theorem Manages.mapVars (h : m.Manages m') : m'.mapVars = m.mapVars := by
  rw [h]

theorem Manages.print (h : m.Manages m') : m'.print = m.print := by
  rw [h]

theorem Manages.rng (h : m.Manages m') : m'.rng = m.rng := by
  rw [h]

theorem Manages.foldl {α : Type} {f : Machine → α → Machine}
    (hf : ∀ (m : Machine) x, m.Manages (f m x)) (xs : List α) (m : Machine) :
    m.Manages (xs.foldl f m) := by
  induction xs generalizing m with
  | nil => exact rfl
  | cons x xs ih => exact (hf m x).trans (ih (f m x))

end

theorem startHere_manages (m : Machine) (number : Int32) (args : SpecialArgs)
    (trigger : Trigger) : m.Manages (m.startHere number args trigger).machine := by
  unfold startHere
  split
  · rfl
  · split
    · rfl
    · split <;> rfl

theorem suspendHere_manages (m : Machine) (number : Int32) :
    m.Manages (m.suspendHere number).machine := by
  unfold suspendHere
  split
  · rfl
  · split <;> rfl

theorem terminateHere_manages (m : Machine) (number : Int32) :
    m.Manages (m.terminateHere number).machine := by
  unfold terminateHere
  split
  · rfl
  · split <;> rfl

theorem serve_manages (m : Machine) (r : ScriptRequest) : m.Manages (m.serve r).machine := by
  unfold serve
  cases r.kind with
  | execute =>
      simp only [start]
      split
      · exact rfl
      · exact m.startHere_manages ..
  | suspend =>
      simp only [suspend]
      split
      · exact rfl
      · exact m.suspendHere_manages ..
  | terminate =>
      simp only [terminate]
      split
      · exact rfl
      · exact m.terminateHere_manages ..

/-! ## One live instance -/

section

variable {r : ScriptRequest} {t : InstanceTable} {k : UInt32}

/-- A request changes a live instance only where it reaches it, and then only its state. -/
theorem Serves.get? (h : m.Serves r t) (hlt : k < m.instances.next) {i : ScriptInstance}
    (hi : m.instances.get? k = some i) :
    t.get? k =
      some { i with state := if m.Reaches r k then i.state.asked r.kind else i.state } := by
  cases h with
  | ignored hnone => rw [if_neg (hnone k), hi]
  | started definition info hnone =>
      -- the fresh instance is under the counter, which is above `k`
      rw [if_neg (hnone k), InstanceTable.get?_insert, if_neg (UInt32.ne_of_lt hlt), hi]
  | @reached h j hreaches hj =>
      rw [InstanceTable.setState, InstanceTable.get?_modify]
      by_cases hk : k = h
      · subst hk
        rw [hj] at hi
        cases hi
        rw [if_pos rfl, if_pos hreaches, hj, Option.map_some]
      · have hother : ¬ m.Reaches r k := by
          intro hreaches'
          have hsame := hreaches'.2.1
          rw [hreaches.2.1] at hsame
          exact hk (Option.some.inj hsame).symm
        rw [if_neg hk, if_neg hother, hi]

theorem Serves.get?_eq_none (h : m.Serves r t) (hlt : k < m.instances.next)
    (hfree : m.instances.get? k = none) : t.get? k = none := by
  cases h with
  | ignored _ => exact hfree
  | started definition info _ =>
      rw [InstanceTable.get?_insert, if_neg (UInt32.ne_of_lt hlt), hfree]
  | reached hreaches hj =>
      rw [InstanceTable.setState, InstanceTable.get?_modify, hfree, Option.map_none, ite_self]

/-- Whether a handle below the counter is the oldest of a script does not change. -/
theorem Serves.findHandle?_iff (h : m.Serves r t) (hlt : k < m.instances.next) (number : Int32) :
    t.findHandle? number = some k ↔ m.instances.findHandle? number = some k := by
  cases h with
  | ignored _ => exact Iff.rfl
  | started definition info _ => exact InstanceTable.findHandle?_insert _ hlt number
  | reached hreaches hj =>
      rw [InstanceTable.findHandle?_congr]
      intro k'
      rw [InstanceTable.setState, InstanceTable.get?_modify]
      split
      · rw [Option.map_map]
        rfl
      · rfl

theorem reaches_serve (hlt : k < m.instances.next) (r r' : ScriptRequest) :
    (m.serve r).machine.Reaches r' k ↔ m.Reaches r' k := by
  have hadvances := m.serve_advances r
  have holdest := (m.serve_serves r).findHandle?_iff hlt r'.script
  rw [Reaches, Reaches, isElsewhere, isElsewhere, hadvances.map, hadvances.image, holdest]

end

end Machine

/-! ## Several requests in order -/

namespace Session

variable {s : Session} {k : UInt32}

/-- As long as the counter does not start over, what is below it stays below it, and it can still
serve the rest. -/
theorem next_serve {r : ScriptRequest} {rest : List ScriptRequest}
    (hlt : k < s.machine.instances.next)
    (hcount : s.machine.instances.next.toNat + s.requestHandles (r :: rest) < UInt32.size) :
    k < (s.serve r).machine.instances.next ∧
      (s.serve r).machine.instances.next.toNat + (s.serve r).requestHandles rest <
        UInt32.size := by
  rw [requestHandles] at hcount
  have hnext : (s.serve r).machine.instances.next.toNat =
      s.machine.instances.next.toNat + (s.machine.serve r).handles :=
    InstanceTable.toNat_next_of_grows (s.machine.serve_advances r).table (by omega)
  rw [UInt32.lt_iff_toNat_lt] at hlt ⊢
  omega

/-- While several requests are served, a live instance takes in order those that reach it, and
nothing but its state changes. -/
theorem get?_serveAll {requests : List ScriptRequest} (hlt : k < s.machine.instances.next)
    (hcount : s.machine.instances.next.toNat + s.requestHandles requests < UInt32.size)
    {i : ScriptInstance} (hi : s.machine.instances.get? k = some i) :
    (requests.foldl serve s).machine.instances.get? k = some { i with
      state := i.state.afterRequests (requests.filter (s.machine.Reaches · k)) } := by
  induction requests generalizing s i with
  | nil => exact hi
  | cons r rest ih =>
      obtain ⟨hlt', hcount'⟩ := next_serve hlt hcount
      have hrest := ih hlt' hcount' ((s.machine.serve_serves r).get? hlt hi)
      -- serving `r` changes nothing in which of the others reach `k`
      have hreaches : rest.filter ((s.serve r).machine.Reaches · k) =
          rest.filter (s.machine.Reaches · k) :=
        List.filter_congr fun r' _ => by
          rw [decide_eq_decide]
          exact Machine.reaches_serve hlt r r'
      rw [List.foldl_cons, hrest, hreaches, List.filter_cons]
      by_cases hr : s.machine.Reaches r k
      · simp only [hr, decide_true, if_true]
        rfl
      · simp only [hr, decide_false, if_false, Bool.false_eq_true]

theorem get?_serveAll_eq_none {requests : List ScriptRequest} (hlt : k < s.machine.instances.next)
    (hcount : s.machine.instances.next.toNat + s.requestHandles requests < UInt32.size)
    (hfree : s.machine.instances.get? k = none) :
    (requests.foldl serve s).machine.instances.get? k = none := by
  induction requests generalizing s with
  | nil => exact hfree
  | cons r rest ih =>
      obtain ⟨hlt', hcount'⟩ := next_serve hlt hcount
      exact ih hlt' hcount' ((s.machine.serve_serves r).get?_eq_none hlt hfree)

end Session

end MapScript
