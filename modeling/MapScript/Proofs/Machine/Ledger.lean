import MapScript.Proofs.Interpreter.Specials
import MapScript.Proofs.Machine.Runs
import MapScript.Proofs.Machine.Turns

/-!
# The deferred queue as a ledger

A request for another map is entered at the end of the queue, unless it is a start that is already
there, and it leaves the queue when its map is loaded.  `Posts` says this of one request and is
closed under doing one thing after the other, so that it holds of a turn and of a tick.
-/

namespace MapScript

namespace DeferredAction

/-- Both are starts of one script on one map. -/
def SameStart (a b : DeferredAction) : Prop :=
  a.kind = .execute ∧ b.kind = .execute ∧ a.script = b.script ∧ a.map = b.map

instance (a b : DeferredAction) : Decidable (a.SameStart b) :=
  inferInstanceAs (Decidable (_ ∧ _ ∧ _ ∧ _))

/-- The actions that come to stay when some arrive in order at a queue: all but the starts that the
queue then already holds. -/
def admitted (queue : List DeferredAction) : List DeferredAction → List DeferredAction
  | [] => []
  | a :: rest =>
    if ∃ b ∈ queue, b.SameStart a then admitted queue rest
    else a :: admitted (queue ++ [a]) rest

theorem admitted_append (queue xs ys : List DeferredAction) :
    admitted queue (xs ++ ys) =
      admitted queue xs ++ admitted (queue ++ admitted queue xs) ys := by
  induction xs generalizing queue with
  | nil => simp [admitted]
  | cons a xs ih =>
      by_cases hold : ∃ b ∈ queue, b.SameStart a
      · simp only [List.cons_append, admitted, if_pos hold]
        exact ih queue
      · simp only [List.cons_append, admitted, if_neg hold, ih (queue ++ [a]), List.append_assoc,
          List.nil_append]

theorem mem_of_mem_admitted {queue xs : List DeferredAction} {a : DeferredAction}
    (ha : a ∈ admitted queue xs) : a ∈ xs := by
  induction xs generalizing queue with
  | nil => exact ha
  | cons x xs ih =>
      rw [admitted] at ha
      split at ha
      · exact List.mem_cons_of_mem x (ih ha)
      · rcases List.mem_cons.1 ha with rfl | ha
        · exact List.mem_cons_self
        · exact List.mem_cons_of_mem x (ih ha)

/-- No start is entered twice. -/
theorem pairwise_admitted {queue : List DeferredAction} (xs : List DeferredAction)
    (hqueue : queue.Pairwise fun a b => ¬ a.SameStart b) :
    (queue ++ admitted queue xs).Pairwise fun a b => ¬ a.SameStart b := by
  induction xs generalizing queue with
  | nil => simpa [admitted] using hqueue
  | cons x xs ih =>
      rw [admitted]
      split
      · exact ih hqueue
      · rename_i hnew
        have hsnoc : (queue ++ [x]).Pairwise fun a b => ¬ a.SameStart b := by
          rw [List.pairwise_append]
          refine ⟨hqueue, List.pairwise_singleton _ x, fun a ha b hb hsame => ?_⟩
          rw [List.mem_singleton.1 hb] at hsame
          exact hnew ⟨a, ha, hsame⟩
        have hrest := ih hsnoc
        rwa [List.append_assoc] at hrest

end DeferredAction

theorem DeferredQueue.refuses_iff (q : DeferredQueue) (action : DeferredAction) :
    q.refuses action = true ↔ ∃ b ∈ q.actions, b.SameStart action := by
  simp only [refuses, hasStart, Bool.and_eq_true, decide_eq_true_eq, List.any_eq_true,
    DeferredAction.SameStart]
  constructor
  · rintro ⟨hkind, b, hb, hstart, hscript, hmap⟩
    exact ⟨b, hb, hstart, hkind, hscript, hmap⟩
  · rintro ⟨b, hb, hstart, hkind, hscript, hmap⟩
    exact ⟨hkind, b, hb, hstart, hscript, hmap⟩

theorem DeferredQueue.actions_enqueue (q : DeferredQueue) (action : DeferredAction) :
    (q.enqueue action).actions = q.actions ++ DeferredAction.admitted q.actions [action] := by
  simp only [enqueue, DeferredAction.admitted, ← refuses_iff]
  split <;> simp

namespace ScriptRequest

/-- The action a request comes to when it has to wait.  Only a start has arguments. -/
def action (r : ScriptRequest) : DeferredAction where
  script := r.script
  map := r.map
  kind := r.kind
  args := match r.kind with
    | .execute => r.args
    | .suspend | .terminate => .zero

/-- The actions for other maps among some requests, in order. -/
def outgoing (map : Int32) (requests : List ScriptRequest) : List DeferredAction :=
  (requests.filter fun r => r.map ≠ 0 ∧ r.map ≠ map).map action

theorem outgoing_append (map : Int32) (xs ys : List ScriptRequest) :
    outgoing map (xs ++ ys) = outgoing map xs ++ outgoing map ys := by
  simp [outgoing]

theorem mem_outgoing {map : Int32} {requests : List ScriptRequest} {a : DeferredAction}
    (ha : a ∈ outgoing map requests) : a.map ≠ 0 ∧ a.map ≠ map := by
  obtain ⟨r, hr, rfl⟩ := List.mem_map.1 ha
  have helsewhere := (List.mem_filter.1 hr).2
  simpa [action] using helsewhere

end ScriptRequest

open DeferredAction (admitted admitted_append mem_of_mem_admitted pairwise_admitted)
open ScriptRequest (outgoing outgoing_append mem_outgoing)

namespace Machine

/-- The later machine has the same map, and the requests for other maps have been entered. -/
structure Posts (m : Machine) (requests : List ScriptRequest) (m' : Machine) : Prop where
  map : m'.map = m.map
  actions : m'.deferred.actions =
    m.deferred.actions ++ admitted m.deferred.actions (outgoing m.map requests)

variable {m m' m'' : Machine}

theorem Posts.nothing (hmap : m'.map = m.map) (hdeferred : m'.deferred = m.deferred) :
    m.Posts [] m' := by
  refine ⟨hmap, ?_⟩
  simp [hdeferred, outgoing, admitted]

theorem Posts.trans {xs ys : List ScriptRequest} (h : m.Posts xs m') (h' : m'.Posts ys m'') :
    m.Posts (xs ++ ys) m'' := by
  refine ⟨h'.map.trans h.map, ?_⟩
  calc m''.deferred.actions
      = m'.deferred.actions ++ admitted m'.deferred.actions (outgoing m.map ys) := by
        rw [h'.actions, h.map]
    _ = m.deferred.actions ++ (admitted m.deferred.actions (outgoing m.map xs) ++
          admitted (m.deferred.actions ++ admitted m.deferred.actions (outgoing m.map xs))
            (outgoing m.map ys)) := by
        rw [h.actions, List.append_assoc]
    _ = m.deferred.actions ++ admitted m.deferred.actions (outgoing m.map (xs ++ ys)) := by
        rw [outgoing_append, admitted_append]

/-! ## Requests -/

theorem deferred_startHere (m : Machine) (number : Int32) (args : SpecialArgs)
    (trigger : Trigger) : (m.startHere number args trigger).machine.deferred = m.deferred := by
  unfold startHere
  split
  · rfl
  · split
    · rfl
    · split <;> rfl

theorem deferred_suspendHere (m : Machine) (number : Int32) :
    (m.suspendHere number).machine.deferred = m.deferred := by
  unfold suspendHere
  split
  · rfl
  · split <;> rfl

theorem deferred_terminateHere (m : Machine) (number : Int32) :
    (m.terminateHere number).machine.deferred = m.deferred := by
  unfold terminateHere
  split
  · rfl
  · split <;> rfl

theorem serve_of_elsewhere {r : ScriptRequest} (h : m.isElsewhere r.map = true) :
    m.serve r = m.defer r.action := by
  unfold serve start suspend terminate ScriptRequest.action
  cases r.kind <;> simp only [h, if_true]

theorem deferred_serve_of_here {r : ScriptRequest} (h : m.isElsewhere r.map = false) :
    (m.serve r).machine.deferred = m.deferred := by
  unfold serve start suspend terminate
  cases r.kind with
  | execute =>
      simp only [h, Bool.false_eq_true, if_false]
      exact m.deferred_startHere ..
  | suspend =>
      simp only [h, Bool.false_eq_true, if_false]
      exact m.deferred_suspendHere ..
  | terminate =>
      simp only [h, Bool.false_eq_true, if_false]
      exact m.deferred_terminateHere ..

theorem isElsewhere_iff (m : Machine) (map : Int32) :
    m.isElsewhere map = true ↔ map ≠ 0 ∧ map ≠ m.map := by
  simp [isElsewhere]

theorem isElsewhere_eq_false_iff (m : Machine) (map : Int32) :
    m.isElsewhere map = false ↔ map = 0 ∨ map = m.map := by
  rw [Bool.eq_false_iff, ne_eq, isElsewhere_iff, not_and_or, not_ne_iff, not_ne_iff]

theorem serve_posts (m : Machine) (r : ScriptRequest) : m.Posts [r] (m.serve r).machine := by
  refine ⟨(m.serve_advances r).map, ?_⟩
  cases helsewhere : m.isElsewhere r.map with
  | true =>
      have hout : outgoing m.map [r] = [r.action] := by
        have hmap := (m.isElsewhere_iff r.map).1 helsewhere
        simp [outgoing, hmap]
      rw [serve_of_elsewhere helsewhere, hout]
      exact m.deferred.actions_enqueue r.action
  | false =>
      have hout : outgoing m.map [r] = [] := by
        have hmap := mt (m.isElsewhere_iff r.map).2 (by simp [helsewhere])
        simp only [outgoing, List.filter_cons, hmap, decide_false]
        rfl
      rw [deferred_serve_of_here helsewhere, hout, admitted, List.append_nil]

end Machine

/-! ## Ticks -/

namespace Session

/-- The line specials that the instance under a handle executes in its turn, in order. -/
def specials (s : Session) (h : UInt32) : List LineSpecial :=
  match s.slicing? h with
  | none => []
  | some i =>
    specialsFrom s.machine.image s.machine.config.runawayLimit.toNat { i with state := .running }
      s.context

/-- The requests raised in the turns of several instances. -/
def raised (s : Session) : List UInt32 → List ScriptRequest
  | [] => []
  | h :: rest => (s.specials h).filterMap LineSpecial.request? ++ (s.turn h).raised rest

theorem requests_play (s : Session) (h : UInt32) :
    (s.play h).requests = (s.specials h).filterMap LineSpecial.request? := by
  unfold specials
  cases hslicing : s.slicing? h with
  | none => exact requests_of_slicing?_none hslicing
  | some i =>
      rw [play_of_slicing? hslicing, requests_slice, sliced, runSlice, requests_sliceFrom]
      rfl

theorem deferred_finish (s : Session) (h : UInt32) :
    (s.finish h).machine.deferred = s.machine.deferred := by
  unfold finish
  split <;> rfl

theorem deferred_slice (s : Session) (h : UInt32) (i : ScriptInstance) :
    (s.slice h i).session.machine.deferred = s.machine.deferred := by
  simp only [slice]
  split
  · rfl
  · rfl
  · exact deferred_finish _ h
  · exact deferred_finish _ h

/-- In its own part of a turn an instance enters nothing. -/
theorem deferred_play (s : Session) (h : UInt32) :
    (s.play h).session.machine.deferred = s.machine.deferred := by
  have hrun : ∀ i, (s.run h i).session.machine.deferred = s.machine.deferred := by
    intro i
    unfold run
    split
    · exact s.deferred_slice h _
    · rfl
  unfold play
  split
  · rfl
  · split
    · exact s.deferred_finish h
    · rfl
    · exact hrun _
    · split
      · rfl
      · exact hrun _

theorem serveAll_posts (s : Session) (requests : List ScriptRequest) :
    s.machine.Posts requests (requests.foldl serve s).machine := by
  induction requests generalizing s with
  | nil => exact .nothing rfl rfl
  | cons r rest ih => exact (s.machine.serve_posts r).trans (ih (s.serve r))

theorem turn_posts (s : Session) (h : UInt32) :
    s.machine.Posts ((s.specials h).filterMap LineSpecial.request?) (s.turn h).machine := by
  have hplay : s.machine.Posts [] (s.play h).session.machine :=
    .nothing (s.play_advances h).map (s.deferred_play h)
  have hserve := (s.play h).session.serveAll_posts (s.play h).requests
  rw [← requests_play]
  exact hplay.trans hserve

theorem turns_posts (s : Session) (handles : List UInt32) :
    s.machine.Posts (s.raised handles) (handles.foldl turn s).machine := by
  induction handles generalizing s with
  | nil => exact .nothing rfl rfl
  | cons h rest ih => exact (s.turn_posts h).trans (ih (s.turn h))

end Session

/-- The operation neither loads a map nor starts anew nor takes back a snapshot. -/
def Operation.Continues : Operation → Prop
  | .load _ _ | .newGame | .restore _ _ => False
  | _ => True

namespace Machine

variable {m m' : Machine}

/-! ## Loads -/

theorem deferred_replay (m : Machine) (action : DeferredAction) :
    (m.replay action).machine.deferred = m.deferred := by
  have hreply : (m.replayReply action).machine.deferred = m.deferred := by
    unfold replayReply
    cases action.kind with
    | execute => exact m.deferred_startHere ..
    | suspend => exact m.deferred_suspendHere ..
    | terminate => exact m.deferred_terminateHere ..
  unfold replay
  simp only
  split
  · exact hreply
  · split <;> exact hreply
  · exact hreply

theorem deferred_foldl {α : Type} {f : Machine → α → Machine}
    (hf : ∀ m x, (f m x).deferred = m.deferred) (xs : List α) (m : Machine) :
    (xs.foldl f m).deferred = m.deferred := by
  induction xs generalizing m with
  | nil => rfl
  | cons x xs ih => exact (ih (f m x)).trans (hf m x)

theorem deferred_scheduleAll (m : Machine) : m.scheduleAll.machine.deferred = m.deferred := by
  rw [scheduleAll, Report.machine_foldl_andThen]
  apply deferred_foldl
  exact fun _ _ => rfl

theorem deferred_replayAll (m : Machine) :
    m.replayAll.machine.deferred = m.deferred.without m.map := by
  rw [replayAll, Report.machine_foldl_andThen]
  exact deferred_foldl (fun m action => m.deferred_replay action) _ _

/-- A load takes out the actions for its map and leaves the others in their order. -/
theorem deferred_load (m : Machine) (map : Int32) (bytes : List UInt8) :
    (m.load map bytes).report.machine.deferred = m.deferred.without map := by
  have himage := sound_loadedImage bytes
  have hschedule : ((m.reset map (loadedImage bytes)).scheduleAll.machine).map = map :=
    (scheduleAll_advances (m := m.reset map (loadedImage bytes)) himage fun _ => rfl).map
  have hreplay := deferred_replayAll (m.reset map (loadedImage bytes)).scheduleAll.machine
  rw [hschedule, deferred_scheduleAll] at hreplay
  rw [machine_load]
  exact hreplay

theorem map_load (m : Machine) (map : Int32) (bytes : List UInt8) :
    (m.load map bytes).report.machine.map = map := by
  rw [machine_load]
  exact (enter_advances m map (sound_loadedImage bytes)).map

/-! ## Runs -/

/-- The requests of an operation: the one it is, or those that scripts raise in a tick. -/
def requests (m : Machine) : Operation → List ScriptRequest
  | .start number map args trigger => [⟨.execute, number, map, args, trigger⟩]
  | .suspend number map => [⟨.suspend, number, map, .zero, .none⟩]
  | .terminate number map => [⟨.terminate, number, map, .zero, .none⟩]
  | .tick host => Session.raised { machine := m, host } m.instances.handles
  | .load _ _ | .tagFinished _ | .polyFinished _ | .newGame | .restore _ _ => []

theorem perform_posts (m : Machine) {op : Operation} (hop : op.Continues) :
    m.Posts (m.requests op) (m.perform op).machine := by
  cases op with
  | start number map args trigger =>
      exact m.serve_posts ⟨.execute, number, map, args, trigger⟩
  | suspend number map => exact m.serve_posts ⟨.suspend, number, map, .zero, .none⟩
  | terminate number map => exact m.serve_posts ⟨.terminate, number, map, .zero, .none⟩
  | tick host => exact Session.turns_posts { machine := m, host } m.instances.handles
  | tagFinished tag => exact .nothing rfl rfl
  | polyFinished poly => exact .nothing rfl rfl
  | load map bytes => exact hop.elim
  | newGame => exact hop.elim
  | restore bytes s => exact hop.elim

/-- The machine comes about by operations of which only snapshots of such machines are taken
back. -/
inductive Genuine : Machine → Prop
  | new (config : Config) (entropy : Generator) : Genuine (new config entropy)
  | perform {m : Machine} {op : Operation} (hm : Genuine m)
      (hop : ∀ bytes s, op ≠ .restore bytes s) : Genuine (m.perform op).machine
  | restore {m v : Machine} (bytes : List UInt8) (hm : Genuine m) (hv : Genuine v) :
      Genuine (m.perform (.restore bytes v.snapshot)).machine

/-- No action waits for the loaded map, and no start waits twice. -/
structure Balanced (m : Machine) : Prop where
  elsewhere : ∀ a ∈ m.deferred.actions, a.map ≠ 0 ∧ a.map ≠ m.map
  distinct : m.deferred.actions.Pairwise fun a b => ¬ a.SameStart b

theorem Posts.balanced {requests : List ScriptRequest} (h : m.Posts requests m')
    (hm : m.Balanced) : m'.Balanced := by
  refine ⟨fun a ha => ?_, ?_⟩
  · rw [h.actions] at ha
    rw [h.map]
    rcases List.mem_append.1 ha with ha | ha
    · exact hm.elsewhere a ha
    · exact mem_outgoing (mem_of_mem_admitted ha)
  · rw [h.actions]
    exact pairwise_admitted _ hm.distinct

theorem Balanced.load (hm : m.Balanced) (map : Int32) (bytes : List UInt8) :
    (m.load map bytes).report.machine.Balanced := by
  refine ⟨fun a ha => ?_, ?_⟩
  · rw [deferred_load] at ha
    rw [map_load]
    obtain ⟨ha, hmap⟩ := List.mem_filter.1 ha
    exact ⟨(hm.elsewhere a ha).1, of_decide_eq_true hmap⟩
  · rw [deferred_load]
    exact hm.distinct.filter _

theorem Genuine.balanced (hm : m.Genuine) : m.Balanced := by
  induction hm with
  | new config entropy => exact ⟨fun a ha => absurd ha List.not_mem_nil, .nil⟩
  | @perform m op _ hop ih =>
      by_cases hcontinues : op.Continues
      · exact (m.perform_posts hcontinues).balanced ih
      · cases op with
        | load map bytes => exact ih.load map bytes
        | newGame => exact ⟨fun a ha => absurd ha List.not_mem_nil, .nil⟩
        | restore bytes s => exact absurd rfl (hop bytes s)
        | _ => exact absurd trivial hcontinues
  | @restore m v bytes _ _ hm hv =>
      simp only [Machine.perform]
      split
      · exact hm
      · split
        · exact hm
        · rename_i m' journal hrestore
          obtain ⟨_, _, rfl, _⟩ := restore_eq_ok_iff.1 hrestore
          exact ⟨hv.elsewhere, hv.distinct⟩

/-- The deferred queue is an exact ledger.  It never holds an action for the loaded map or for no
map, and never a start twice.  An operation that goes on with the game leaves what is there and
enters, in order, the requests for other maps, from outside or from the specials that scripts
execute in a tick, but for starts that are already there.  Loading a map, with an image that is
accepted or refused, takes out exactly the actions for it. -/
theorem deferred_ledger (m : Machine) (hm : m.Genuine) :
    (∀ a ∈ m.deferred.actions, a.map ≠ 0 ∧ a.map ≠ m.map) ∧
    m.deferred.actions.Pairwise (fun a b => ¬ a.SameStart b) ∧
    (∀ op : Operation, op.Continues → (m.perform op).machine.deferred.actions =
      m.deferred.actions ++ admitted m.deferred.actions (outgoing m.map (m.requests op))) ∧
    ∀ map bytes, (m.perform (.load map bytes)).machine.deferred.actions =
      m.deferred.actions.filter (·.map ≠ map) := by
  have hbalanced := hm.balanced
  refine ⟨hbalanced.elsewhere, hbalanced.distinct, fun op hop => ?_, fun map bytes => ?_⟩
  · exact (m.perform_posts hop).actions
  · exact congrArg DeferredQueue.actions (m.deferred_load map bytes)

/-- An image whose open script asks twice to start the fifth script of the second map, and then to
suspend it. -/
def postingImage : List UInt8 :=
  Word.join [0x534341, 60, 10, 80, 5, 2, 10, 80, 5, 2, 10, 81, 5, 2, 1, 1, 1001, 8, 0, 0]

/-- A machine restored before the turn of that script, with a start waiting for a third map. -/
def posting : Machine :=
  let saved := (new { openScriptDelay := 0 } 0).after [.load 1 postingImage, .start 5 3 .zero .none]
  ((new {} 7).perform (.restore postingImage saved.snapshot)).machine

/-- The tick in which the script asks enters one start and one suspension. -/
theorem deferred_ledger_posting :
    posting.Genuine ∧ (posting.requests (.tick .new)).length = 3 ∧
    (posting.perform (.tick .new)).machine.deferred.actions =
      [⟨5, 3, .execute, .zero⟩, ⟨5, 2, .execute, .zero⟩, ⟨5, 2, .suspend, .zero⟩] := by
  have hgenuine : posting.Genuine :=
    .restore postingImage (.new {} 7) (.perform (.perform (.new _ 0) nofun) nofun)
  have htick := (deferred_ledger posting hgenuine).2.2.1 (.tick .new) trivial
  refine ⟨hgenuine, by decide +kernel, ?_⟩
  rw [htick]
  decide +kernel

end Machine

end MapScript
