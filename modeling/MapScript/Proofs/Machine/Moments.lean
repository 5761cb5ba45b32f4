import MapScript.Proofs.Machine.Ledger
import MapScript.Proofs.Machine.Starts

/-!
# Moments of a run

The turns and the served requests of a run as lists, each with the state it meets.  A property that
every part of a turn and every request keep holds at all of these moments: `holds_throughout`.
-/

namespace MapScript

namespace Machine.Advances

variable {m m' : Machine} {n : Nat} (h : m.Advances n m')
include h

theorem toNat_next (hcount : m.instances.next.toNat + n < UInt32.size) :
    m'.instances.next.toNat = m.instances.next.toNat + n :=
  InstanceTable.toNat_next_of_grows h.table hcount

theorem lt_next (hcount : m.instances.next.toNat + n < UInt32.size) {k : UInt32}
    (hlt : k < m.instances.next) : k < m'.instances.next := by
  have hnext := h.toNat_next hcount
  rw [UInt32.lt_iff_toNat_lt] at hlt ⊢
  omega

/-- What is left of the counter after the first part of some work. -/
theorem counts {n' : Nat} (hcount : m.instances.next.toNat + (n + n') < UInt32.size) :
    m.instances.next.toNat + n < UInt32.size ∧ m'.instances.next.toNat + n' < UInt32.size := by
  have hfirst : m.instances.next.toNat + n < UInt32.size := by omega
  have hnext := h.toNat_next hfirst
  omega

end Machine.Advances

/-- A request and the machine that serves it. -/
structure Serving where
  machine : Machine
  request : ScriptRequest

namespace Session

/-! ## Turns -/

/-- The turns of several instances in order: the session before each, and whose turn it is. -/
def turnMoments (s : Session) : List UInt32 → List (Session × UInt32)
  | [] => []
  | h :: rest => (s, h) :: (s.turn h).turnMoments rest

theorem map_snd_turnMoments (s : Session) (handles : List UInt32) :
    (s.turnMoments handles).map Prod.snd = handles := by
  induction handles generalizing s with
  | nil => rfl
  | cons h rest ih => rw [turnMoments, List.map_cons, ih]

theorem mem_turnMoments {s s' : Session} {handles : List UInt32} {h : UInt32} :
    (s', h) ∈ s.turnMoments handles ↔
      ∃ played rest, handles = played ++ h :: rest ∧ s' = played.foldl turn s := by
  induction handles generalizing s with
  | nil => simp [turnMoments]
  | cons k handles ih =>
      rw [turnMoments, List.mem_cons, ih]
      constructor
      · rintro (heq | ⟨played, rest, rfl, rfl⟩)
        · cases heq
          exact ⟨[], handles, rfl, rfl⟩
        · exact ⟨k :: played, rest, rfl, rfl⟩
      · rintro ⟨played, rest, hsplit, rfl⟩
        cases played with
        | nil =>
            cases hsplit
            exact .inl rfl
        | cons k' played =>
            cases hsplit
            exact .inr ⟨played, rest, rfl, rfl⟩

/-! ## Requests -/

def servings (s : Session) : List ScriptRequest → List Serving
  | [] => []
  | r :: rest => ⟨s.machine, r⟩ :: (s.serve r).servings rest

/-- The requests served at the end of the turn of the instance under a handle. -/
def turnServings (s : Session) (h : UInt32) : List Serving :=
  (s.play h).session.servings (s.play h).requests

/-- The requests served in the turns of several instances. -/
def turnsServings (s : Session) (handles : List UInt32) : List Serving :=
  (s.turnMoments handles).flatMap fun p => p.1.turnServings p.2

theorem request_mem_of_mem_servings {s : Session} {requests : List ScriptRequest} {x : Serving}
    (hx : x ∈ s.servings requests) : x.request ∈ requests := by
  induction requests generalizing s with
  | nil => cases hx
  | cons r rest ih =>
      rcases List.mem_cons.1 hx with rfl | hx
      · exact List.mem_cons_self
      · exact List.mem_cons_of_mem r (ih hx)

section

variable {P : Machine → Prop} {s : Session}
  (hserve : ∀ m r, m.instances.next.toNat + (m.serve r).handles < UInt32.size → P m →
    P (m.serve r).machine)
include hserve

theorem holds_serveAll {requests : List ScriptRequest}
    (hcount : s.machine.instances.next.toNat + s.requestHandles requests < UInt32.size)
    (hs : P s.machine) :
    P (requests.foldl serve s).machine ∧ ∀ x ∈ s.servings requests, P x.machine := by
  induction requests generalizing s with
  | nil => exact ⟨hs, List.forall_mem_nil _⟩
  | cons r rest ih =>
      obtain ⟨hfirst, hrest⟩ := (s.machine.serve_advances r).counts hcount
      obtain ⟨hend, hmoments⟩ := ih (s := s.serve r) hrest (hserve s.machine r hfirst hs)
      exact ⟨hend, List.forall_mem_cons.2 ⟨hs, hmoments⟩⟩

variable (hplay : ∀ (s : Session) h, P s.machine → P (s.play h).session.machine)
include hplay

theorem holds_turn {h : UInt32}
    (hcount : s.machine.instances.next.toNat + s.turnHandles h < UInt32.size)
    (hs : P s.machine) :
    P (s.turn h).machine ∧ ∀ x ∈ s.turnServings h, P x.machine := by
  rw [← (s.play_plays h).next] at hcount
  exact holds_serveAll hserve hcount (hplay s h hs)

theorem holds_turns {handles : List UInt32}
    (hcount : s.machine.instances.next.toNat + s.turnsHandles handles < UInt32.size)
    (hs : P s.machine) :
    P (handles.foldl turn s).machine ∧ (∀ p ∈ s.turnMoments handles, P p.1.machine) ∧
      ∀ x ∈ s.turnsServings handles, P x.machine := by
  induction handles generalizing s with
  | nil => exact ⟨hs, List.forall_mem_nil _, List.forall_mem_nil _⟩
  | cons h rest ih =>
      obtain ⟨hfirst, hrest⟩ := (s.turn_advances h).counts hcount
      obtain ⟨hturn, hservings⟩ := holds_turn hserve hplay hfirst hs
      obtain ⟨hend, hmoments, hlater⟩ := ih (s := s.turn h) hrest hturn
      refine ⟨hend, List.forall_mem_cons.2 ⟨hs, hmoments⟩, ?_⟩
      intro x hx
      rw [turnsServings, turnMoments, List.flatMap_cons, List.mem_append] at hx
      exact hx.elim (hservings x) (hlater x)

end

end Session

/-! ## Runs -/

namespace Machine

def turnsOf (m : Machine) : Operation → List (Session × UInt32)
  | .tick host => Session.turnMoments { machine := m, host } m.instances.handles
  | _ => []

def servingsOf (m : Machine) : Operation → List Serving
  | .start number map args trigger => [⟨m, .execute, number, map, args, trigger⟩]
  | .suspend number map => [⟨m, .suspend, number, map, .zero, .none⟩]
  | .terminate number map => [⟨m, .terminate, number, map, .zero, .none⟩]
  | .tick host => Session.turnsServings { machine := m, host } m.instances.handles
  | _ => []

/-- The turns along a run. -/
def turnMoments (m : Machine) : List Operation → List (Session × UInt32)
  | [] => []
  | op :: ops => m.turnsOf op ++ (m.perform op).machine.turnMoments ops

/-- The requests served along a run, from outside or raised by a script. -/
def servings (m : Machine) : List Operation → List Serving
  | [] => []
  | op :: ops => m.servingsOf op ++ (m.perform op).machine.servings ops

theorem countsOn_append {m : Machine} {before rest : List Operation} :
    m.CountsOn (before ++ rest) ↔ m.CountsOn before ∧ (m.after before).CountsOn rest := by
  induction before generalizing m with
  | nil => exact (iff_of_eq (true_and _)).symm
  | cons op before ih =>
      rw [List.cons_append, CountsOn, CountsOn, ih, and_assoc]
      rfl

theorem perform_advances (m : Machine) {op : Operation} (hop : op.Continues) :
    m.Advances (m.handlesFor op) (m.perform op).machine := by
  cases op with
  | start number map args trigger => exact m.start_advances number map args trigger
  | suspend number map => exact m.suspend_advances number map
  | terminate number map => exact m.terminate_advances number map
  | tick host => exact Session.tick_advances { machine := m, host }
  | tagFinished tag => exact m.wake_advances (.tag tag)
  | polyFinished poly => exact m.wake_advances (.poly poly)
  | load map bytes => exact hop.elim
  | newGame => exact hop.elim
  | restore bytes s => exact hop.elim

section

variable {P : Machine → Prop}
  (hserve : ∀ m r, m.instances.next.toNat + (m.serve r).handles < UInt32.size → P m →
    P (m.serve r).machine)
  (hplay : ∀ (s : Session) h, P s.machine → P (s.play h).session.machine)
  (hwake : ∀ m on, P m → P (m.wake on))
include hserve hplay hwake

theorem holds_perform {m : Machine} {op : Operation} (hop : op.Continues)
    (hcount : m.instances.next.toNat + m.handlesFor op < UInt32.size) (hm : P m) :
    P (m.perform op).machine ∧ (∀ p ∈ m.turnsOf op, P p.1.machine) ∧
      ∀ x ∈ m.servingsOf op, P x.machine := by
  cases op with
  | start number map args trigger =>
      exact ⟨hserve m ⟨.execute, number, map, args, trigger⟩ hcount hm,
        List.forall_mem_nil _, List.forall_mem_singleton.2 hm⟩
  | suspend number map =>
      exact ⟨hserve m ⟨.suspend, number, map, .zero, .none⟩ hcount hm,
        List.forall_mem_nil _, List.forall_mem_singleton.2 hm⟩
  | terminate number map =>
      exact ⟨hserve m ⟨.terminate, number, map, .zero, .none⟩ hcount hm,
        List.forall_mem_nil _, List.forall_mem_singleton.2 hm⟩
  | tick host => exact Session.holds_turns hserve hplay (s := { machine := m, host }) hcount hm
  | tagFinished tag => exact ⟨hwake m (.tag tag) hm, List.forall_mem_nil _, List.forall_mem_nil _⟩
  | polyFinished poly =>
      exact ⟨hwake m (.poly poly) hm, List.forall_mem_nil _, List.forall_mem_nil _⟩
  | load map bytes => exact hop.elim
  | newGame => exact hop.elim
  | restore bytes s => exact hop.elim

/-- What requests, parts of turns and notifications keep holds throughout a run in which the
counter does not start over: at its end, before every turn and before every request. -/
theorem holds_throughout {m : Machine} {ops : List Operation}
    (hops : ∀ op ∈ ops, op.Continues) (hcount : m.CountsOn ops) (hm : P m) :
    P (m.after ops) ∧ (∀ p ∈ m.turnMoments ops, P p.1.machine) ∧
      ∀ x ∈ m.servings ops, P x.machine := by
  induction ops generalizing m with
  | nil => exact ⟨hm, List.forall_mem_nil _, List.forall_mem_nil _⟩
  | cons op ops ih =>
      rw [List.forall_mem_cons] at hops
      obtain ⟨hnext, hturns, hservings⟩ :=
        holds_perform hserve hplay hwake hops.1 hcount.1 hm
      obtain ⟨hend, hlaterTurns, hlaterServings⟩ := ih hops.2 hcount.2 hnext
      refine ⟨hend, fun p hp => ?_, fun x hx => ?_⟩
      · rw [turnMoments, List.mem_append] at hp
        exact hp.elim (hturns p) (hlaterTurns p)
      · rw [servings, List.mem_append] at hx
        exact hx.elim (hservings x) (hlaterServings x)

end

end Machine

end MapScript
