import MapScript.Proofs.Interpreter.Kinds
import MapScript.Proofs.Machine.Departures
import MapScript.Proofs.Machine.Turns
import MapScript.Proofs.PrintBuffer

/-!
# Messages

All scripts of a machine collect their messages in one buffer, in whatever order their turns bring
them to it.  `Publishes` says of any stretch of work on a buffer and a host that the buffer stays
within its limit and so does every message that reaches the host.  Steps keep it, and so do turns,
ticks and runs.
-/

namespace MapScript

/-- No message that the event makes takes more bytes. -/
def HostEvent.Within (limit : Nat) (e : HostEvent) : Prop :=
  ∀ text, e.printed? = some text → text.utf8ByteSize ≤ limit

/-- The buffer is within its limit, which has not changed, and events have been added to the host
whose messages are within it. -/
structure Publishes (b : PrintBuffer) (host : Host) (b' : PrintBuffer) (host' : Host) : Prop where
  limit : b'.limit = b.limit
  within : b'.Within
  added : ∃ events : List HostEvent, host'.events.toList = host.events.toList ++ events ∧
    ∀ e ∈ events, e.Within b.limit

namespace Publishes

variable {b b' b'' : PrintBuffer} {host host' host'' : Host}

/-- Work that adds no event. -/
theorem quiet (hlimit : b'.limit = b.limit) (hwithin : b'.Within) : Publishes b host b' host :=
  ⟨hlimit, hwithin, [], (List.append_nil _).symm, List.forall_mem_nil _⟩

theorem refl (hb : b.Within) : Publishes b host b host := quiet rfl hb

theorem trans (h : Publishes b host b' host') (h' : Publishes b' host' b'' host'') :
    Publishes b host b'' host'' := by
  obtain ⟨first, hfirst, hwithin⟩ := h.added
  obtain ⟨second, hsecond, hwithin'⟩ := h'.added
  rw [h.limit] at hwithin'
  refine ⟨h'.limit.trans h.limit, h'.within, first ++ second, ?_, ?_⟩
  · rw [hsecond, hfirst, List.append_assoc]
  · exact List.forall_mem_append.2 ⟨hwithin, hwithin'⟩

theorem record (hb : b.Within) {e : HostEvent} (he : e.Within b.limit) :
    Publishes b host b (host.record e) := by
  refine ⟨rfl, hb, [e], ?_, List.forall_mem_singleton.2 he⟩
  rw [Host.events_record, Array.toList_push]

end Publishes

/-! ## Steps -/

namespace Instruction

open Operands

/-- An effect whose event, if it has one, has no other message than the text of the buffer. -/
def Quotes (c : Context) (effect : Effect) : Prop :=
  ∀ event, effect = .emit event → ∀ text, event.printed? = some text → text = c.print.text

theorem quotes_of_kind {c : Context} {effect : Effect} (h : effect.kind ≠ .emit) :
    Quotes c effect := by
  rintro event rfl
  exact absurd rfl h

theorem quotes_of_none {c : Context} {event : HostEvent} (h : event.printed? = none) :
    Quotes c (.emit event) := by
  intro event' heq text htext
  cases heq
  rw [h] at htext
  cases htext

theorem quotes_special {c : Context} (code : Int32) (args : SpecialArgs) (trigger : Trigger) :
    Quotes c (.special code args trigger) := by
  unfold Effect.special
  simp only
  split
  · exact quotes_of_kind nofun
  · split
    · exact quotes_of_kind nofun
    · split
      · exact quotes_of_kind nofun
      · exact quotes_of_none rfl

theorem effect_quotes (instruction : Instruction) (image : Image) (i : ScriptInstance)
    (c : Context) : (instruction.effect image i c).Obeys (Quotes c) fun _ => True := by
  have htext : (popString image).Obeys (fun _ => True) fun _ => True :=
    .popString trivial fun _ => trivial
  have hkinds : Within instruction.kinds (instruction.effect image i c) := effect_kinds instruction
  -- only these instructions emit at all
  cases instruction with
  | lineSpecial code argc =>
      exact .bind (.popArgs trivial argc) fun args _ => .pure (quotes_special code args _)
  | lineSpecialDirect code argc args => exact .pure (quotes_special code args _)
  | changeFlat surface =>
      exact .bind htext fun _ _ => .bind (.pop trivial) fun _ _ => .pure (quotes_of_none rfl)
  | changeFlatDirect surface tag flat =>
      simp only [effect]
      split
      · exact .pure (quotes_of_none rfl)
      · exact .throw trivial
  | clearLineSpecial =>
      simp only [effect]
      split
      · exact .pure (quotes_of_none rfl)
      · exact .pure (quotes_of_kind (by simp [Effect.kind]))
  | endPrint | endPrintBold =>
      refine .pure fun event heq text htext => ?_
      cases heq
      cases htext
      rfl
  | sectorSound | ambientSound =>
      exact .bind (.pop trivial) fun _ _ => .bind htext fun _ _ => .pure (quotes_of_none rfl)
  | soundSequence => exact .bind htext fun _ _ => .pure (quotes_of_none rfl)
  | thingSound =>
      exact .bind (.pop trivial) fun _ _ => .bind htext fun _ _ => .bind (.pop trivial) fun _ _ =>
        .pure (quotes_of_none rfl)
  | setLineTexture =>
      exact .bind htext fun _ _ => .bind (.pop trivial) fun _ _ => .bind (.pop trivial) fun _ _ =>
        .bind (.pop trivial) fun _ _ => .pure (quotes_of_none rfl)
  | setLineBlocking =>
      exact .bind (.pop trivial) fun _ _ => .bind (.pop trivial) fun _ _ =>
        .pure (quotes_of_none rfl)
  | setLineSpecial =>
      exact .bind (.popArgs trivial specialArgCount) fun _ _ => .bind (.pop trivial) fun _ _ =>
        .bind (.pop trivial) fun _ _ => .pure (quotes_of_none rfl)
  | «variable» op scope index =>
      refine hkinds.imp (fun effect hkind => quotes_of_kind ?_) fun _ h => h
      intro hemit
      rw [hemit, kinds] at hkind
      split at hkind <;> simp at hkind
  | _ =>
      refine hkinds.imp (fun effect hkind => quotes_of_kind ?_) fun _ h => h
      intro hemit
      rw [hemit] at hkind
      simp [kinds] at hkind

end Instruction

theorem Effect.perform_publishes {effect : Effect} {c : Context} (hb : c.print.Within)
    (hquotes : Instruction.Quotes c effect) (next : Nat) (i : ScriptInstance) :
    Publishes c.print c.host (effect.perform next i c).context.print
      (effect.perform next i c).context.host := by
  cases effect with
  | push value =>
      rw [Effect.perform, context_pushResult]
      exact .refl hb
  | draw min max =>
      simp only [Effect.perform, context_pushResult]
      exact .refl hb
  | store scope index value => cases scope <;> exact .refl hb
  | emit event =>
      apply Publishes.record hb
      intro text htext
      rw [hquotes event rfl text htext]
      exact hb
  | clearPrint => exact .quiet rfl c.print.within_clear
  | print text => exact .quiet (c.print.limit_append text) (PrintBuffer.within_append hb text)
  | _ => exact .refl hb

theorem step_publishes (image : Image) (i : ScriptInstance) {c : Context} (hb : c.print.Within) :
    Publishes c.print c.host (step image i c).context.print (step image i c).context.host := by
  unfold step
  split
  · exact .refl hb
  · rename_i d _
    have hquotes := d.instruction.effect_quotes image i c i.stack
    split
    · rename_i effect stack heffect
      rw [heffect] at hquotes
      exact effect.perform_publishes hb hquotes.2 _ _
    · exact .refl hb

theorem runSlice_publishes (image : Image) (limit : UInt32) (i : ScriptInstance) {c : Context}
    (hb : c.print.Within) :
    Publishes c.print c.host (runSlice image limit i c).context.print
      (runSlice image limit i c).context.host := by
  unfold runSlice
  generalize limit.toNat = fuel
  induction fuel generalizing i c with
  | zero => exact .refl hb
  | succ fuel ih =>
      have hstep := step_publishes image i hb
      simp only [sliceFrom]
      split
      · exact hstep.trans (ih _ hstep.within)
      · exact hstep

/-! ## Turns and ticks -/

namespace Session

/-- The session has gone on to another one. -/
abbrev Publishes (s s' : Session) : Prop :=
  MapScript.Publishes s.machine.print s.host s'.machine.print s'.host

variable {s : Session}

theorem print_finish (s : Session) (h : UInt32) :
    (s.finish h).machine.print = s.machine.print := by
  unfold finish
  split <;> rfl

theorem finish_publishes (hb : s.machine.print.Within) (h : UInt32) : s.Publishes (s.finish h) := by
  rw [Publishes, print_finish, host_finish]
  exact .refl hb

theorem finish_note_publishes (hb : s.machine.print.Within) (n : Notice) (h : UInt32) :
    s.Publishes ((s.note n).finish h) := by
  have hnote : s.Publishes (s.note n) := .refl hb
  exact hnote.trans (finish_publishes hnote.within h)

theorem slice_publishes (hb : s.machine.print.Within) (h : UInt32) (i : ScriptInstance) :
    s.Publishes (s.slice h i).session := by
  have habsorb : s.Publishes (s.absorb h
      (runSlice s.machine.image s.machine.config.runawayLimit i s.context)) :=
    runSlice_publishes (c := s.context) s.machine.image _ i hb
  simp only [slice]
  split
  · exact habsorb
  · exact habsorb
  · exact habsorb.trans (finish_publishes habsorb.within h)
  · exact habsorb.trans (finish_note_publishes habsorb.within _ h)

theorem run_publishes (hb : s.machine.print.Within) (h : UInt32) (i : ScriptInstance) :
    s.Publishes (s.run h i).session := by
  unfold run
  split
  · exact slice_publishes hb h _
  · exact .refl hb

theorem play_publishes (hb : s.machine.print.Within) (h : UInt32) :
    s.Publishes (s.play h).session := by
  unfold play
  split
  · exact .refl hb
  · split
    · exact finish_publishes hb h
    · exact .refl hb
    · exact run_publishes hb h _
    · split
      · exact .refl hb
      · exact run_publishes hb h _

theorem serveAll_publishes (hb : s.machine.print.Within) (requests : List ScriptRequest) :
    s.Publishes (requests.foldl serve s) := by
  have hprint : (requests.foldl serve s).machine.print = s.machine.print := by
    rw [machine_serveAll]
    exact (Machine.Manages.foldl Machine.serve_manages requests s.machine).print
  rw [Publishes, hprint, host_serveAll]
  exact .refl hb

theorem turn_publishes (hb : s.machine.print.Within) (h : UInt32) : s.Publishes (s.turn h) := by
  have hplay := play_publishes hb h
  exact hplay.trans (serveAll_publishes hplay.within _)

theorem turns_publishes (hb : s.machine.print.Within) (handles : List UInt32) :
    s.Publishes (handles.foldl turn s) := by
  induction handles generalizing s with
  | nil => exact .refl hb
  | cons h rest ih =>
      have hturn := turn_publishes hb h
      exact hturn.trans (ih hturn.within)

theorem tick_publishes (hb : s.machine.print.Within) : s.Publishes s.tick :=
  turns_publishes hb s.machine.instances.handles

end Session

/-! ## Runs -/

namespace Machine

theorem perform_print_within {m : Machine} (hb : m.print.Within) (op : Operation) :
    (m.perform op).machine.print.Within := by
  have hserve : ∀ r, (m.serve r).machine.print.Within := by
    intro r
    rw [(m.serve_manages r).print]
    exact hb
  cases op with
  | load map bytes =>
      simp only [perform]
      rw [(m.load_manages map bytes).print]
      exact m.print.within_clear
  | start number map args trigger => exact hserve ⟨.execute, number, map, args, trigger⟩
  | suspend number map => exact hserve ⟨.suspend, number, map, .zero, .none⟩
  | terminate number map => exact hserve ⟨.terminate, number, map, .zero, .none⟩
  | tick host => exact (Session.tick_publishes (s := { machine := m, host }) hb).within
  | tagFinished tag => exact hb
  | polyFinished poly => exact hb
  | newGame => exact hb
  | restore bytes s =>
      simp only [perform]
      split
      · exact hb
      · split
        · exact hb
        · rename_i m' journal hrestore
          obtain ⟨-, -, rfl, -⟩ := restore_eq_ok_iff.1 hrestore
          exact m.print.within_clear

theorem print_within_after (config : Config) (entropy : Generator) (ops : List Operation) :
    ((new config entropy).after ops).print.Within := by
  have hnew : (new config entropy).print.Within := Nat.zero_le _
  exact after_induction (P := fun m => m.print.Within)
    (fun _ op hm => perform_print_within hm op) hnew ops

theorem Moves.config {m m' : Machine} {n : Nat} (h : m.Moves n m') : m'.config = m.config := by
  cases h with
  | advance h => exact h.config
  | enter _ h => exact h.config
  | anew => rfl
  | restore _ _ _ => rfl

theorem config_after (m : Machine) (ops : List Operation) : (m.after ops).config = m.config :=
  after_induction (P := fun m' => m'.config = m.config)
    (fun m' op hm => (m'.perform_moves op).config.trans hm) rfl ops

end Machine

/-- Texts are cut at characters and at the limit.  Whatever is done with a buffer, its text takes no
more bytes than the limit, an append adds the longest part from the start of its text with which
this holds, and texts of single bytes, added since the buffer was last cleared, are there as far as
the limit goes.  So in every tick of every run of a machine the scripts add to what the host has
recorded, and none of their messages takes more bytes than the configuration allows. -/
theorem messages_within_limit :
    (∀ (limit : Nat) (calls : List PrintBuffer.Call),
      let b := (PrintBuffer.new limit).after calls
      b.text.utf8ByteSize ≤ limit ∧
      (∀ text : String, ∃ kept, kept <+: text.toList ∧
        (b.append text).1.text = b.text ++ String.ofList kept ∧
        ∀ p, p <+: text.toList →
          (b.text.utf8ByteSize + (String.ofList p).utf8ByteSize ≤ limit ↔
            p.length ≤ kept.length)) ∧
      ((∀ text ∈ PrintBuffer.sinceClear calls, PrintBuffer.Ascii text) →
        Text.Utf8.encode b.text =
          (Text.Utf8.encode (String.join (PrintBuffer.sinceClear calls))).take limit)) ∧
    ∀ (config : Config) (entropy : Generator) (ops : List Operation) (host : Host),
      let s := Session.tick { machine := (Machine.new config entropy).after ops, host }
      ∃ added, s.host.events.toList = host.events.toList ++ added ∧
        ∀ text recipient style, HostEvent.print text recipient style ∈ added →
          text.utf8ByteSize ≤ config.printBufferLimit := by
  refine ⟨fun limit calls => ?_, fun config entropy ops host => ?_⟩
  · intro b
    obtain ⟨hwithin, hlimit⟩ := PrintBuffer.after_within limit calls
    have hbytes := PrintBuffer.encode_after limit calls
    rw [PrintBuffer.Within, hlimit] at hwithin
    refine ⟨hwithin, fun text => ?_, hbytes⟩
    obtain ⟨kept, hkept⟩ := PrintBuffer.append_keeps (PrintBuffer.after_within limit calls).1 text
    have hlongest := hkept.longest
    rw [hlimit] at hlongest
    exact ⟨kept, hkept.start, by rw [hkept.buffer], hlongest⟩
  · intro s
    have hlimit :
        ((Machine.new config entropy).after ops).print.limit = config.printBufferLimit := by
      rw [Machine.printLimited_after config entropy ops, Machine.config_after]
      rfl
    have htick := Session.tick_publishes
      (s := { machine := (Machine.new config entropy).after ops, host })
      (Machine.print_within_after config entropy ops)
    obtain ⟨added, hadded, hwithin⟩ := htick.added
    rw [hlimit] at hwithin
    exact ⟨added, hadded, fun text recipient style hmem => hwithin _ hmem text rfl⟩

/-- An image whose open script prints an `a`, two characters of two bytes each and a `b`. -/
def accentsImage : List UInt8 :=
  Word.join [0x534341, 68, 85, 3, 97, 89, 3, 233, 89, 3, 233, 89, 3, 98, 89, 86, 1, 1, 1001, 8, 0,
    0]

/-- What was there before a buffer was cleared does not count, and two texts are cut as one.  In
four bytes the second of the two characters is left out, and the letter after it still fits. -/
theorem messages_within_limit_accents :
    let calls := [.append "é", .clear, .append "ab", .append "cd"]
    let config : Config := { openScriptDelay := 0, printBufferLimit := 4 }
    let m := (Machine.new config 0).after [.load 1 accentsImage]
    let s := Session.tick { machine := m, host := .new }
    ((∀ text ∈ PrintBuffer.sinceClear calls, PrintBuffer.Ascii text) ∧
      Text.Utf8.encode ((PrintBuffer.new 3).after calls).text = Text.Utf8.encode "abc") ∧
    s.host.prints = ["aéb"] ∧
    ∀ text recipient style, HostEvent.print text recipient style ∈ s.host.events.toList →
      text.utf8ByteSize ≤ 4 := by
  intro calls config m s
  have hascii : ∀ text ∈ PrintBuffer.sinceClear calls, PrintBuffer.Ascii text := by decide +kernel
  have hbytes := (messages_within_limit.1 3 calls).2.2 hascii
  obtain ⟨added, hadded, hwithin⟩ :=
    messages_within_limit.2 config 0 [.load 1 accentsImage] .new
  refine ⟨⟨hascii, hbytes.trans (by decide +kernel)⟩, by decide +kernel, ?_⟩
  have hall : s.host.events.toList = added := hadded
  rw [hall]
  exact hwithin

end MapScript
