import MapScript.Machine.Snapshot
import MapScript.Proofs.InstanceTable
import MapScript.Proofs.Json.Faithful
import MapScript.Proofs.Text.Decimal

/-!
# Snapshots read back from their text

Every part of a snapshot is read back from the way it is written, and so is a whole snapshot from
its text.  A place in the image is a machine size; `Snapshot.Addressable` says so for the two places
an instance holds, the only numbers of a snapshot that are not 32 bits wide.
-/

namespace MapScript

open Json (Faithful)

/-! ## Variables, operands and triggers -/

theorem VarStore.faithful {n : Nat} (s : VarStore n) :
    Faithful VarStore.toJson VarStore.ofJson? s := by
  have h := Faithful.vector (v := s.values) fun a _ => Faithful.int32 a
  refine ⟨h.written, ?_⟩
  rw [VarStore.toJson, VarStore.ofJson?, VarStore.toList, h.back]
  rfl

theorem SpecialArgs.faithful (args : SpecialArgs) :
    Faithful SpecialArgs.toJson SpecialArgs.ofJson? args :=
  Faithful.vector fun a _ => Faithful.int32 a

theorem OperandStack.faithful (s : OperandStack) :
    Faithful OperandStack.toJson OperandStack.ofJson? s := by
  have h : Faithful (.list .int32) (Json.list? Json.int32?) s.toList :=
    Faithful.list fun a _ => Faithful.int32 a
  refine ⟨Json.written_record (by simp [h.written]), ?_⟩
  rw [OperandStack.toJson, OperandStack.ofJson?, Json.fields?_record (by rfl) (by decide)]
  simp [h.back]

theorem LineSide.faithful (side : LineSide) :
    Faithful (fun side => .text (LineSide.name side)) LineSide.ofJson? side := by
  refine ⟨Json.written_text _, ?_⟩
  cases side <;> rfl

theorem Trigger.faithful (t : Trigger) : Faithful Trigger.toJson Trigger.ofJson? t := by
  have hnull : ∀ n, Json.uint32 n ≠ .null := nofun
  have hactivator := Faithful.nullable hnull (o := t.activator) fun n _ => Faithful.uint32 n
  have hline := Faithful.nullable hnull (o := t.line) fun n _ => Faithful.uint32 n
  have hside := LineSide.faithful t.side
  refine ⟨Json.written_record (by simp [hactivator.written, hline.written, hside.written]), ?_⟩
  rw [Trigger.toJson, Trigger.ofJson?, Json.fields?_record (by rfl) (by decide)]
  simp [hactivator.back, hline.back, hside.back]

/-! ## Instances -/

theorem ScriptState.adjacent?_waiting (name : String) (n : Int32) :
    (Json.record [("state", .text name), ("on", .int32 n)]).adjacent? .document names "state" "on" =
      some (name, some (.int32 n)) :=
  rfl

theorem ScriptState.faithful (state : ScriptState) :
    Faithful ScriptState.toJson ScriptState.ofJson? state := by
  have hint : ∀ n, (Json.int32 n).int32? = some n := fun n => (Faithful.int32 n).back
  have halone : ∀ name, (Json.record [("state", .text name)]).Written := fun name =>
    Json.written_record (by simp [Json.written_text])
  have hwaiting : ∀ name n, (Json.record [("state", .text name), ("on", .int32 n)]).Written :=
    fun name n => Json.written_record (by simp [Json.written_text, (Faithful.int32 n).written])
  cases state with
  | running => exact ⟨halone _, rfl⟩
  | suspended => exact ⟨halone _, rfl⟩
  | terminating => exact ⟨halone _, rfl⟩
  | waiting awaited =>
      cases awaited with
      | tag n =>
          refine ⟨hwaiting _ n, ?_⟩
          rw [ScriptState.toJson, ScriptState.ofJson?, adjacent?_waiting]
          simp [hint]
      | poly n =>
          refine ⟨hwaiting _ n, ?_⟩
          rw [ScriptState.toJson, ScriptState.ofJson?, adjacent?_waiting]
          simp [hint]
      | script n =>
          refine ⟨hwaiting _ n, ?_⟩
          rw [ScriptState.toJson, ScriptState.ofJson?, adjacent?_waiting]
          simp [hint]

/-- The places of an instance are machine sizes. -/
def ScriptInstance.Addressable (i : ScriptInstance) : Prop :=
  i.definition < 18446744073709551616 ∧ i.pc < 18446744073709551616

theorem ScriptInstance.faithful {i : ScriptInstance} (hi : i.Addressable) :
    Faithful ScriptInstance.toJson ScriptInstance.ofJson? i := by
  have hnumber := Faithful.int32 i.number
  have hdefinition := Faithful.size hi.1
  have hpc := Faithful.size hi.2
  have hstack := i.stack.faithful
  have hlocals := i.locals.faithful
  have hstate := i.state.faithful
  have hdelay := Faithful.uint32 i.delay
  have htrigger := i.trigger.faithful
  refine ⟨Json.written_record (by simp [hnumber.written, hdefinition.written, hpc.written,
    hstack.written, hlocals.written, hstate.written, hdelay.written, htrigger.written]), ?_⟩
  rw [ScriptInstance.toJson, ScriptInstance.ofJson?, Json.fields?_record (by rfl) (by decide)]
  simp [hnumber.back, hdefinition.back, hpc.back, hstack.back, hlocals.back, hstate.back,
    hdelay.back, htrigger.back]

/-! ## Deferred actions -/

theorem ActionKind.faithful (kind : ActionKind) :
    Faithful ActionKind.toJson ActionKind.ofJson? kind := by
  refine ⟨Json.written_text _, ?_⟩
  cases kind <;> rfl

theorem DeferredAction.faithful (a : DeferredAction) :
    Faithful DeferredAction.toJson DeferredAction.ofJson? a := by
  have hscript := Faithful.int32 a.script
  have hmap := Faithful.int32 a.map
  have hkind := a.kind.faithful
  have hargs := SpecialArgs.faithful a.args
  refine ⟨Json.written_record (by simp [hscript.written, hmap.written, hkind.written,
    hargs.written]), ?_⟩
  rw [DeferredAction.toJson, DeferredAction.ofJson?, Json.fields?_record (by rfl) (by decide)]
  simp [hscript.back, hmap.back, hkind.back, hargs.back]

theorem DeferredQueue.faithful (q : DeferredQueue) :
    Faithful DeferredQueue.toJson DeferredQueue.ofJson? q := by
  have h : Faithful (.list DeferredAction.toJson) (Json.list? DeferredAction.ofJson?) q.actions :=
    Faithful.list fun a _ => a.faithful
  refine ⟨h.written, ?_⟩
  rw [DeferredQueue.toJson, DeferredQueue.ofJson?, h.back]
  rfl

/-! ## Handles -/

namespace InstanceTable

theorem isPlain_of_isDigit {c : Char} (hc : Json.Token.isDigit c = true) :
    Json.isPlain c = true := by
  rw [Json.Token.isDigit, Bool.and_eq_true, decide_eq_true_eq, decide_eq_true_eq] at hc
  have hlow : 48 ≤ c.toNat := Char.le_def.1 hc.1
  have hquote : c ≠ '"' := by
    rintro rfl
    exact absurd hlow (by decide)
  have hslash : c ≠ '\\' := by
    rintro rfl
    exact absurd hc.2 (by decide)
  have hcontrol : 0x20 ≤ c.toNat := by omega
  simp [Json.isPlain, hquote, hslash, hcontrol]

/-- A handle is the name it is written under. -/
theorem handle?_toString (h : UInt32) : handle? (.ofString (toString h.toNat)) = some h := by
  have hread := Text.Decimal.readUInt32_toDigits h
  have htext : (toString h.toNat).toList = Nat.toDigits 10 h.toNat := by
    rw [Nat.toString_eq_ofList_toDigits, String.toList_ofList]
  have hplain : (toString h.toNat).toList.all Json.isPlain = true := by
    rw [htext, List.all_eq_true]
    exact fun c hc => isPlain_of_isDigit (Json.Token.isDigit_toDigits hc)
  rw [handle?, Json.Literal.ofString, hplain]
  simp only [Option.bind_eq_bind, Option.bind_some, Bool.not_true, Bool.false_eq_true, if_false]
  rw [htext]
  split
  · rename_i hnil
    exact absurd hnil Nat.toDigits_ne_nil
  · -- no number has a zero in front of other digits
    rename_i hcons
    by_cases hzero : h.toNat = 0
    · rw [hzero, Nat.toDigits_zero] at hcons
      cases hcons
    · exact absurd rfl (Json.Token.head_toDigits (by omega) hcons)
  · rename_i hcons
    have hplus : Json.Token.isDigit '+' = true :=
      Json.Token.isDigit_toDigits (hcons ▸ List.mem_cons_self)
    cases hplus
  · rw [hread]
    rfl

/-! ## Tables -/

/-- Records that come in ascending order are put behind those that are there. -/
theorem foldlM_records {es : List (UInt32 × ScriptInstance)} {m : HandleMap ScriptInstance}
    (hes : ∀ e ∈ es, e.2.Addressable)
    (hascending : (m.entries ++ es).Pairwise fun a b => a.1 < b.1) :
    (es.map fun (h, i) => (Json.Literal.ofString (toString h.toNat), i.toJson)).foldlM
        (fun m (name, v) => do return m.insert (← handle? name) (← ScriptInstance.ofJson? v)) m =
      some ⟨m.entries ++ es, hascending⟩ := by
  induction es generalizing m with
  | nil => simp
  | cons e es ih =>
      obtain ⟨h, i⟩ := e
      rw [List.forall_mem_cons] at hes
      have hlast : (m.insert h i).entries = m.entries ++ [(h, i)] := by
        apply m.entries_insert_of_lt
        intro e he
        exact (List.pairwise_append.1 hascending).2.2 e he (h, i) List.mem_cons_self
      have hrest : ((m.insert h i).entries ++ es).Pairwise fun a b => a.1 < b.1 := by
        rw [hlast, List.append_assoc]
        exact hascending
      have hback := (ScriptInstance.faithful hes.1).back
      simp only [List.map_cons, List.foldlM_cons, handle?_toString, hback, Option.bind_eq_bind,
        Option.bind_some, Option.pure_def]
      have hfold := ih hes.2 hrest
      simp only [Option.bind_eq_bind, Option.pure_def] at hfold
      rw [hfold]
      simp only [hlast, List.append_assoc, List.singleton_append]

def recordsJson (m : HandleMap ScriptInstance) : Json :=
  .record (m.entries.map fun (h, i) => (toString h.toNat, i.toJson))

theorem faithful_records {m : HandleMap ScriptInstance}
    (hm : ∀ e ∈ m.entries, e.2.Addressable) : Faithful recordsJson records? m := by
  constructor
  · apply Json.written_record
    rw [List.forall_mem_map]
    exact fun e he => (ScriptInstance.faithful (hm e he)).written
  · rw [recordsJson, Json.record, records?, List.map_map]
    exact foldlM_records (m := .empty) hm m.ascending

theorem faithful {t : InstanceTable} (ht : ∀ e ∈ t.records.entries, e.2.Addressable) :
    Faithful InstanceTable.toJson InstanceTable.ofJson? t := by
  have hnext := Faithful.uint32 t.next
  have hrecords := faithful_records ht
  have hjson : t.toJson =
      .record [("next_handle", .uint32 t.next), ("records", recordsJson t.records)] := rfl
  constructor
  · rw [hjson]
    exact Json.written_record (by simp [hnext.written, hrecords.written])
  · rw [hjson, InstanceTable.ofJson?, Json.fields?_record (by rfl) (by decide)]
    simp [hnext.back, hrecords.back]

end InstanceTable

/-! ## Snapshots -/

namespace Snapshot

/-- Every instance's places are machine sizes. -/
def Addressable (s : Snapshot) : Prop :=
  ∀ e ∈ s.instances.records.entries, e.2.Addressable

theorem faithful {s : Snapshot} (hs : s.Addressable) :
    Faithful Snapshot.toJson Snapshot.ofJson? s := by
  have hmap := Faithful.int32 s.map
  have hworld := s.worldVars.faithful
  have hvars := s.mapVars.faithful
  have hinstances := InstanceTable.faithful hs
  have hdeferred := s.deferred.faithful
  refine ⟨Json.written_record (by simp [hmap.written, hworld.written, hvars.written,
    hinstances.written, hdeferred.written]), ?_⟩
  rw [Snapshot.toJson, Snapshot.ofJson?, Json.fields?_record (by rfl) (by decide)]
  simp [hmap.back, hworld.back, hvars.back, hinstances.back, hdeferred.back]

/-- A snapshot is read back from its text. -/
theorem parse_compact_toJson (s : Snapshot) (hs : s.Addressable) :
    (Json.parse? s.toJson.compact).bind Snapshot.ofJson? = some s :=
  (faithful hs).text_back

/-- Two instances under handles far apart, one of them waiting, and an action for another map. -/
def crowded : Snapshot where
  map := -2147483648
  worldVars := .ofList [1, -1]
  mapVars := .zero
  instances :=
    { next := 0
      records :=
        { entries := [
            (7, { number := 3, definition := 0, pc := 2, stack := .ofList [2147483647, -5],
                  locals := .ofList [4], state := .waiting (.script (-9)), delay := 4294967295,
                  trigger := .ofLine (some 1) 2 .back }),
            (4294967295, { number := 3, definition := 18446744073709551615, pc := 0,
                           stack := .empty, locals := .zero, state := .terminating, delay := 0,
                           trigger := .none })]
          ascending := by decide } }
  deferred := ⟨[⟨5, 8, .suspend, .ofList [1, 2]⟩]⟩

theorem parse_compact_toJson_crowded :
    crowded.Addressable ∧
      (Json.parse? crowded.toJson.compact).bind Snapshot.ofJson? = some crowded := by
  have h : crowded.Addressable := by
    simp [Addressable, ScriptInstance.Addressable, crowded]
  exact ⟨h, parse_compact_toJson crowded h⟩

end Snapshot

end MapScript
