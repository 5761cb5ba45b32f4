import MapScript.Proofs.Machine.Terminating

/-!
# The life of a script by requests

What a request is answered, and what it changes, by the state of the script's live instance.  A
search by number finds the oldest instance, so that all of this rests on no number being live
twice.
-/

namespace MapScript

namespace Image

theorem findScript?_eq_none_iff {image : Image} {number : Int32} :
    image.findScript? number = none ↔ ∀ info ∈ image.scripts, info.number ≠ number := by
  constructor
  · intro hnone info hinfo hnumber
    have hindex : (image.scripts.findIdx? (·.number = number)).isSome = true := by
      rw [List.findIdx?_isSome, List.any_eq_true]
      exact ⟨info, hinfo, decide_eq_true hnumber⟩
    obtain ⟨index, hindex⟩ := Option.isSome_iff_exists.1 hindex
    obtain ⟨hlt, _⟩ := List.findIdx?_eq_some_iff_getElem.1 hindex
    simp [findScript?, hindex, hlt] at hnone
  · intro hnone
    cases hfind : image.findScript? number with
    | none => rfl
    | some found =>
        obtain ⟨hdeclared, hnumber⟩ := findScript?_eq_some hfind
        exact absurd hnumber (hnone found.2 (List.mem_of_getElem? hdeclared))

end Image

namespace Machine

/-- An instance of the script is live, in a state as said. -/
def LiveIn (m : Machine) (number : Int32) (P : ScriptState → Prop) : Prop :=
  ∃ h i, m.instances.get? h = some i ∧ i.number = number ∧ P i.state

/-- No instance of the script is live. -/
def Absent (m : Machine) (number : Int32) : Prop :=
  ∀ h i, m.instances.get? h = some i → i.number ≠ number

/-- The image declares the script. -/
def Declares (m : Machine) (number : Int32) : Prop :=
  ∃ info ∈ m.image.scripts, info.number = number

/-- The later machine is the earlier one but for the instance under a handle and the next handle. -/
structure Puts (m : Machine) (next h : UInt32) (i : ScriptInstance) (m' : Machine) : Prop where
  machine : m' = { m with instances := m'.instances }
  next : m'.instances.next = next
  get? : ∀ k, m'.instances.get? k = if k = h then some i else m.instances.get? k

/-- An action comes to wait, or it is a start that already does and nothing changes. -/
structure Defers (m : Machine) (action : DeferredAction) (r : Reply) : Prop where
  answer : ∃ queued, r.answer = .ok (.deferred queued)
  machine : r.machine = { m with deferred := r.machine.deferred }
  refused : r.answer = .ok (.deferred false) ↔ ∃ a ∈ m.deferred.actions, a.SameStart action
  unchanged : r.answer = .ok (.deferred false) ↔ r.machine = m
  queued : r.answer = .ok (.deferred true) →
    r.machine.deferred.actions = m.deferred.actions ++ [action]

/-- How a start of a script of the loaded map is answered, and what it changes. -/
structure Starts (m : Machine) (number : Int32) (args : SpecialArgs) (trigger : Trigger)
    (r : Reply) : Prop where
  unknown : r.answer = .error (.unknownScript number) ↔ ¬ m.Declares number
  started : r.answer = .ok .started ↔ m.Declares number ∧ m.Absent number
  resumed : r.answer = .ok .resumed ↔ m.LiveIn number (· = .suspended)
  running : r.answer = .error (.alreadyRunning number) ↔ m.LiveIn number (· ≠ .suspended)
  adds : r.answer = .ok .started →
    ∃ definition info, m.image.findScript? number = some (definition, info) ∧
      m.Puts (m.instances.next + 1) m.instances.next (.new definition info args trigger) r.machine ∧
      ∀ k j, m.instances.get? k = some j → r.machine.instances.get? k = some j
  sets : r.answer = .ok .resumed → ∀ h i, m.instances.get? h = some i → i.number = number →
    m.Puts m.instances.next h { i with state := .running } r.machine
  fails : ∀ cause, r.answer = .error cause → r.machine = m

/-- How a suspension of a script of the loaded map is answered, and what it changes. -/
structure Suspends (m : Machine) (number : Int32) (r : Reply) : Prop where
  absent : r.answer = .error (.notRunning number) ↔ m.Absent number
  suspended : r.answer = .error (.alreadySuspended number) ↔ m.LiveIn number (· = .suspended)
  terminating : r.answer = .error (.alreadyTerminating number) ↔
    m.LiveIn number (· = .terminating)
  done : r.answer = .ok .suspended ↔
    m.LiveIn number fun state => state ≠ .suspended ∧ state ≠ .terminating
  sets : r.answer = .ok .suspended → ∀ h i, m.instances.get? h = some i → i.number = number →
    m.Puts m.instances.next h { i with state := .suspended } r.machine
  fails : ∀ cause, r.answer = .error cause → r.machine = m

/-- How an end of a script of the loaded map is answered, and what it changes. -/
structure Terminates (m : Machine) (number : Int32) (r : Reply) : Prop where
  absent : r.answer = .error (.notRunning number) ↔ m.Absent number
  terminating : r.answer = .error (.alreadyTerminating number) ↔
    m.LiveIn number (· = .terminating)
  done : r.answer = .ok .terminating ↔ m.LiveIn number (· ≠ .terminating)
  sets : r.answer = .ok .terminating → ∀ h i, m.instances.get? h = some i → i.number = number →
    m.Puts m.instances.next h { i with state := .terminating } r.machine
  fails : ∀ cause, r.answer = .error cause → r.machine = m

variable {m : Machine} {number : Int32} {h : UInt32} {i : ScriptInstance}

/-! ## What a search finds -/

theorem not_liveIn (hfind : m.instances.find? number = none) (P : ScriptState → Prop) :
    ¬ m.LiveIn number P := by
  rintro ⟨h, i, hi, hnumber, _⟩
  exact InstanceTable.find?_eq_none_iff.1 hfind h i hi hnumber

theorem not_absent (hfind : m.instances.find? number = some (h, i)) : ¬ m.Absent number := by
  intro habsent
  obtain ⟨hi, hnumber⟩ := InstanceTable.get?_of_find? hfind
  exact habsent h i hi hnumber

section

variable (hdistinct : m.instances.Distinct) (hfind : m.instances.find? number = some (h, i))
include hdistinct hfind

/-- Where no number is live twice, the instance found is the only one of its script. -/
theorem eq_of_find? {k : UInt32} {j : ScriptInstance} (hj : m.instances.get? k = some j)
    (hnumber : j.number = number) : k = h ∧ j = i := by
  have hfound := hdistinct.find?_number hj
  rw [hnumber, hfind] at hfound
  cases hfound
  exact ⟨rfl, rfl⟩

theorem liveIn_iff (P : ScriptState → Prop) : m.LiveIn number P ↔ P i.state := by
  constructor
  · rintro ⟨k, j, hj, hnumber, hP⟩
    obtain ⟨rfl, rfl⟩ := eq_of_find? hdistinct hfind hj hnumber
    exact hP
  · intro hP
    obtain ⟨hi, hnumber⟩ := InstanceTable.get?_of_find? hfind
    exact ⟨h, i, hi, hnumber, hP⟩

theorem puts_setState (state : ScriptState) {k : UInt32} {j : ScriptInstance}
    (hj : m.instances.get? k = some j) (hnumber : j.number = number) :
    m.Puts m.instances.next k { j with state }
      { m with instances := m.instances.setState h state } := by
  obtain ⟨rfl, rfl⟩ := eq_of_find? hdistinct hfind hj hnumber
  refine ⟨rfl, rfl, fun k' => ?_⟩
  rw [InstanceTable.setState, InstanceTable.get?_modify]
  split
  · rename_i hk
    rw [hk, hj, Option.map_some]
  · rfl

end

/-! ## Requests -/

theorem defer_defers (m : Machine) (action : DeferredAction) :
    m.Defers action (m.defer action) := by
  have hrefused := m.deferred.refuses_iff action
  cases hrefuses : m.deferred.refuses action with
  | true =>
      have hreply : m.defer action =
          ⟨.ok (.deferred false), m, m.deferred.enqueueNotices action⟩ := by
        simp only [defer, DeferredQueue.enqueue, hrefuses, if_true, Bool.not_true]
      rw [hreply]
      exact ⟨⟨false, rfl⟩, rfl, iff_of_true rfl (hrefused.1 hrefuses), iff_of_true rfl rfl,
        fun hqueued => absurd hqueued (by simp)⟩
  | false =>
      have hreply : m.defer action = ⟨.ok (.deferred true),
          { m with deferred := ⟨m.deferred.actions ++ [action]⟩ },
          m.deferred.enqueueNotices action⟩ := by
        simp only [defer, DeferredQueue.enqueue, hrefuses, Bool.false_eq_true, if_false,
          Bool.not_false]
      have hnot : ¬ ∃ a ∈ m.deferred.actions, a.SameStart action := by
        rw [← hrefused, hrefuses]
        exact Bool.false_ne_true
      have hanswer : (Except.ok (.deferred true) : Except RequestError Outcome) ≠
          .ok (.deferred false) := by
        simp
      rw [hreply]
      refine ⟨⟨true, rfl⟩, rfl, iff_of_false hanswer hnot, iff_of_false hanswer ?_, fun _ => rfl⟩
      -- the queue has become longer
      intro hsame
      have hactions := congrArg (fun m : Machine => m.deferred.actions.length) hsame
      simp at hactions

theorem suspendHere_suspends (hdistinct : m.instances.Distinct) (number : Int32) :
    m.Suspends number (m.suspendHere number) := by
  unfold suspendHere
  cases hfind : m.instances.find? number with
  | none =>
      have habsent : m.Absent number := InstanceTable.find?_eq_none_iff.1 hfind
      exact ⟨iff_of_true rfl habsent, iff_of_false nofun (not_liveIn hfind _),
        iff_of_false nofun (not_liveIn hfind _), iff_of_false nofun (not_liveIn hfind _), nofun,
        fun _ _ => rfl⟩
  | some found =>
      obtain ⟨h, i⟩ := found
      have hlive := liveIn_iff hdistinct hfind
      simp only
      split
      · rename_i hstate
        refine ⟨iff_of_false nofun (not_absent hfind), ?_, ?_, ?_, nofun, fun _ _ => rfl⟩
        all_goals simp [hlive, hstate]
      · rename_i hstate
        refine ⟨iff_of_false nofun (not_absent hfind), ?_, ?_, ?_, nofun, fun _ _ => rfl⟩
        all_goals simp [hlive, hstate]
      · rename_i hsuspended hterminating
        refine ⟨iff_of_false nofun (not_absent hfind), ?_, ?_, ?_, fun _ k j hj hnumber => ?_,
          nofun⟩
        · simpa [hlive] using hsuspended
        · simpa [hlive] using hterminating
        · simpa [hlive] using ⟨hsuspended, hterminating⟩
        · exact puts_setState hdistinct hfind .suspended hj hnumber

theorem terminateHere_terminates (hdistinct : m.instances.Distinct) (number : Int32) :
    m.Terminates number (m.terminateHere number) := by
  unfold terminateHere
  cases hfind : m.instances.find? number with
  | none =>
      have habsent : m.Absent number := InstanceTable.find?_eq_none_iff.1 hfind
      exact ⟨iff_of_true rfl habsent, iff_of_false nofun (not_liveIn hfind _),
        iff_of_false nofun (not_liveIn hfind _), nofun, fun _ _ => rfl⟩
  | some found =>
      obtain ⟨h, i⟩ := found
      have hlive := liveIn_iff hdistinct hfind
      simp only
      split
      · rename_i hstate
        refine ⟨iff_of_false nofun (not_absent hfind), ?_, ?_, nofun, fun _ _ => rfl⟩
        all_goals simp [hlive, hstate]
      · rename_i hstate
        refine ⟨iff_of_false nofun (not_absent hfind), ?_, ?_, fun _ k j hj hnumber => ?_, nofun⟩
        · simpa [hlive] using hstate
        · simpa [hlive] using hstate
        · exact puts_setState hdistinct hfind .terminating hj hnumber

theorem declares_of_findScript? {definition : Nat} {info : ScriptInfo}
    (hscript : m.image.findScript? number = some (definition, info)) : m.Declares number := by
  obtain ⟨hdeclared, hnumber⟩ := Image.findScript?_eq_some hscript
  exact ⟨info, List.mem_of_getElem? hdeclared, hnumber⟩

theorem startHere_starts (hdistinct : m.instances.Distinct)
    (hdeclared : ∀ h i, m.instances.get? h = some i → m.Declares i.number)
    (hfree : m.instances.get? m.instances.next = none) (number : Int32) (args : SpecialArgs)
    (trigger : Trigger) : m.Starts number args trigger (m.startHere number args trigger) := by
  unfold startHere
  cases hscript : m.image.findScript? number with
  | none =>
      have hundeclared : ¬ m.Declares number := by
        rintro ⟨info, hinfo, hnumber⟩
        exact Image.findScript?_eq_none_iff.1 hscript info hinfo hnumber
      have hlive : ∀ P, ¬ m.LiveIn number P := by
        rintro P ⟨h, i, hi, rfl, _⟩
        exact hundeclared (hdeclared h i hi)
      exact ⟨iff_of_true rfl hundeclared, iff_of_false nofun fun h => hundeclared h.1,
        iff_of_false nofun (hlive _), iff_of_false nofun (hlive _), nofun, nofun, fun _ _ => rfl⟩
  | some script =>
      obtain ⟨definition, info⟩ := script
      have hscriptDeclared : m.Declares number := declares_of_findScript? hscript
      cases hfind : m.instances.find? number with
      | none =>
          have habsent : m.Absent number := InstanceTable.find?_eq_none_iff.1 hfind
          refine ⟨iff_of_false nofun fun h => h hscriptDeclared,
            iff_of_true rfl ⟨hscriptDeclared, habsent⟩, iff_of_false nofun (not_liveIn hfind _),
            iff_of_false nofun (not_liveIn hfind _), fun _ => ?_, nofun, nofun⟩
          refine ⟨definition, info, hscript, ⟨rfl, rfl, InstanceTable.get?_insert _ _⟩, ?_⟩
          intro k j hj
          have hk : k ≠ m.instances.next := by
            rintro rfl
            rw [hfree] at hj
            cases hj
          rw [InstanceTable.get?_insert, if_neg hk, hj]
      | some found =>
          obtain ⟨h, i⟩ := found
          have hlive := liveIn_iff hdistinct hfind
          simp only
          split
          · rename_i hstate
            refine ⟨iff_of_false nofun fun h => h hscriptDeclared,
              iff_of_false nofun fun h => not_absent hfind h.2, ?_, ?_, nofun,
              fun _ k j hj hnumber => puts_setState hdistinct hfind .running hj hnumber, nofun⟩
            all_goals simp [hlive, hstate]
          · rename_i hstate
            refine ⟨iff_of_false nofun fun h => h hscriptDeclared,
              iff_of_false nofun fun h => not_absent hfind h.2, ?_, ?_, nofun, nofun,
              fun _ _ => rfl⟩
            · simpa [hlive] using hstate
            · simpa [hlive] using hstate

/-- Requests follow the table of a script's life.  For another map an action comes to wait, and
nothing else changes; nothing at all changes exactly where it is a start that already waits.  For
the loaded map the answer is decided by whether the image declares the script and by the state of
its live instance.  A start that succeeds adds a fresh instance under the next handle or sets a
suspended one running, a suspension and an end that succeed set the state of the live instance, and
nothing else changes; a request that fails changes nothing. -/
theorem requests_follow_lifecycle (m : Machine) (hdistinct : m.instances.Distinct)
    (hdeclared : ∀ h i, m.instances.get? h = some i → m.Declares i.number)
    (hfree : m.instances.get? m.instances.next = none) (number map : Int32) (args : SpecialArgs)
    (trigger : Trigger) :
    (map ≠ 0 ∧ map ≠ m.map →
      m.Defers ⟨number, map, .execute, args⟩ (m.start number map args trigger) ∧
      m.Defers ⟨number, map, .suspend, .zero⟩ (m.suspend number map) ∧
      m.Defers ⟨number, map, .terminate, .zero⟩ (m.terminate number map)) ∧
    (map = 0 ∨ map = m.map →
      m.Starts number args trigger (m.start number map args trigger) ∧
      m.Suspends number (m.suspend number map) ∧
      m.Terminates number (m.terminate number map)) := by
  unfold start suspend terminate
  constructor
  · intro hmap
    rw [(m.isElsewhere_iff map).2 hmap]
    exact ⟨m.defer_defers _, m.defer_defers _, m.defer_defers _⟩
  · intro hmap
    rw [(m.isElsewhere_eq_false_iff map).2 hmap]
    exact ⟨startHere_starts hdistinct hdeclared hfree number args trigger,
      suspendHere_suspends hdistinct number, terminateHere_terminates hdistinct number⟩

/-- The first of four scripts is running, the second suspended and the third terminating; a start of
the fourth waits for another map. -/
def assorted : Machine :=
  (new {} 0).after [.load 1 idleImage, .start 1 0 .zero .none, .start 2 0 .zero .none,
    .suspend 2 0, .start 3 0 .zero .none, .terminate 3 0, .start 4 2 .zero .none]

theorem requests_follow_lifecycle_assorted :
    (assorted.start 4 1 .zero .none).answer = .ok .started ∧
    (assorted.start 2 0 .zero .none).answer = .ok .resumed ∧
    ((assorted.suspend 3 0).answer = .error (.alreadyTerminating 3) ∧
      (assorted.suspend 3 0).machine = assorted) ∧
    ((assorted.start 4 2 .zero .none).answer = .ok (.deferred false) ∧
      (assorted.start 4 2 .zero .none).machine = assorted) := by
  have hformed : assorted.WellFormed := wellFormed_after_new _ _ _
  have hdeclared : ∀ h i, assorted.instances.get? h = some i → assorted.Declares i.number := by
    intro h i hi
    obtain ⟨info, hinfo, hnumber⟩ := (hformed.table.instances h i hi).declared
    exact ⟨info, List.mem_of_getElem? hinfo, hnumber⟩
  have hfree : assorted.instances.get? assorted.instances.next = none := by decide +kernel
  have hlife := requests_follow_lifecycle assorted hformed.table.unique hdeclared hfree
  have hmap : assorted.map = 1 := by decide +kernel
  have hfourth : assorted.Declares 4 ∧ assorted.Absent 4 := by
    refine ⟨?_, InstanceTable.find?_eq_none_iff.1 (by decide +kernel)⟩
    exact ⟨⟨4, 2, 0, false⟩, by decide +kernel, rfl⟩
  have hsecond : assorted.LiveIn 2 (· = .suspended) :=
    ⟨2, { ScriptInstance.new 1 ⟨2, 2, 0, false⟩ .zero .none with state := .suspended },
      by decide +kernel, rfl, rfl⟩
  have hthird : assorted.LiveIn 3 (· = .terminating) :=
    ⟨3, { ScriptInstance.new 2 ⟨3, 2, 0, false⟩ .zero .none with state := .terminating },
      by decide +kernel, rfl, rfl⟩
  have hwaits : ∃ a ∈ assorted.deferred.actions, a.SameStart ⟨4, 2, .execute, .zero⟩ :=
    ⟨⟨4, 2, .execute, .zero⟩, by decide +kernel, rfl, rfl, rfl, rfl⟩
  have hstarts := ((hlife 4 1 .zero .none).2 (.inr hmap.symm)).1
  have hresumes := ((hlife 2 0 .zero .none).2 (.inl rfl)).1
  have hsuspends := ((hlife 3 0 .zero .none).2 (.inl rfl)).2.1
  have hdefers := ((hlife 4 2 .zero .none).1 (by rw [hmap]; decide)).1
  have hrefused := hdefers.refused.2 hwaits
  have hterminating := hsuspends.terminating.2 hthird
  exact ⟨hstarts.started.2 hfourth, hresumes.resumed.2 hsecond,
    ⟨hterminating, hsuspends.fails _ hterminating⟩, hrefused, hdefers.unchanged.1 hrefused⟩

end Machine

end MapScript
