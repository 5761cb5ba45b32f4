import Mathlib.Data.List.Induction
import MapScript.PrintBuffer
import MapScript.Proofs.Text.Utf8

/-!
# What a print buffer holds

Along any calls on a buffer its text stays within the limit, and a text is added up to the last
character that fits.  Where every character is one byte, cutting each text as it is added is the
same as cutting them all at once: `encode_after`.
-/

namespace MapScript.PrintBuffer

/-- What can be done with a buffer. -/
inductive Call where
  | append (text : String)
  | clear

def call (b : PrintBuffer) : Call → PrintBuffer
  | .append text => (b.append text).1
  | .clear => b.clear

def after (b : PrintBuffer) (calls : List Call) : PrintBuffer := calls.foldl call b

/-- The texts added after the last time that the buffer was cleared, in order. -/
def sinceClear (calls : List Call) : List String :=
  calls.foldl (fun texts c => match c with | .append text => texts ++ [text] | .clear => []) []

def Within (b : PrintBuffer) : Prop := b.text.utf8ByteSize ≤ b.limit

/-- The characters are the longest part from the start of a text that the buffer has room for, and
the buffer with them is the second one. -/
structure Keeps (b : PrintBuffer) (text kept : List Char) (b' : PrintBuffer) : Prop where
  buffer : b' = { b with text := b.text ++ String.ofList kept }
  start : kept <+: text
  longest : ∀ p, p <+: text →
    (b.text.utf8ByteSize + (String.ofList p).utf8ByteSize ≤ b.limit ↔ p.length ≤ kept.length)

variable {b b' : PrintBuffer}

theorem size_cons (c : Char) (cs : List Char) :
    (String.ofList (c :: cs)).utf8ByteSize = c.utf8Size + (String.ofList cs).utf8ByteSize := by
  rw [String.ofList_cons, String.utf8ByteSize_append, String.utf8ByteSize_singleton]

/-- A text of which nothing fits. -/
theorem Keeps.nothing (hb : b.Within) {text : List Char}
    (hfull : ∀ c rest, text = c :: rest → ¬ b.fits c = true) : b.Keeps text [] b := by
  refine ⟨?buffer, List.nil_prefix, fun p hp => ?longest⟩
  case buffer => rw [String.ofList_nil, String.append_empty]
  case longest =>
    cases p with
    | nil => exact iff_of_true hb (Nat.le_refl 0)
    | cons c p =>
        obtain ⟨rest, rfl⟩ := hp
        have hover := hfull c (p ++ rest) rfl
        rw [fits, decide_eq_true_eq] at hover
        rw [size_cons, List.length_cons, List.length_nil]
        omega

/-- A character that fits is kept before what is kept of the rest. -/
theorem Keeps.cons {c : Char} {text kept : List Char} (hb : b.Within)
    (h : (b.push c).Keeps text kept b') : b.Keeps (c :: text) (c :: kept) b' := by
  refine ⟨?buffer, (List.prefix_cons_inj c).2 h.start, fun p hp => ?longest⟩
  case buffer =>
    rw [h.buffer, push, String.ofList_cons, ← String.append_assoc, String.append_singleton]
  case longest =>
    cases p with
    | nil => exact iff_of_true hb (Nat.zero_le _)
    | cons c' p =>
        obtain ⟨rfl, hp'⟩ := List.cons_prefix_cons.1 hp
        have hlongest := h.longest p hp'
        have hlimit : (b.push c').limit = b.limit := rfl
        rw [hlimit, push, String.utf8ByteSize_push] at hlongest
        rw [size_cons, List.length_cons, List.length_cons]
        omega

theorem Keeps.within {text kept : List Char} (h : b.Keeps text kept b') : b'.Within := by
  have hkept := (h.longest kept h.start).2 (Nat.le_refl _)
  rw [h.buffer, Within, String.utf8ByteSize_append]
  exact hkept

theorem appendChars_keeps (hb : b.Within) (text : List Char) :
    ∃ kept, b.Keeps text kept (b.appendChars text).1 := by
  induction text generalizing b with
  | nil => exact ⟨[], .nothing hb nofun⟩
  | cons c text ih =>
      rw [appendChars]
      split
      · rename_i hfits
        have hpush : (b.push c).Within := by
          rw [fits, decide_eq_true_eq] at hfits
          rw [push, Within, String.utf8ByteSize_push]
          exact hfits
        obtain ⟨kept, hkept⟩ := ih hpush
        exact ⟨c :: kept, hkept.cons hb⟩
      · rename_i hfull
        refine ⟨[], .nothing hb fun c' rest heq => ?_⟩
        cases heq
        exact hfull

theorem append_keeps (hb : b.Within) (text : String) :
    ∃ kept, b.Keeps text.toList kept (b.append text).1 :=
  appendChars_keeps hb text.toList

theorem within_append (hb : b.Within) (text : String) : (b.append text).1.Within := by
  obtain ⟨kept, hkept⟩ := append_keeps hb text
  exact hkept.within

theorem within_clear (b : PrintBuffer) : b.clear.Within := Nat.zero_le _

/-! ## Calls in a row -/

theorem call_within (hb : b.Within) (c : Call) :
    (b.call c).Within ∧ (b.call c).limit = b.limit := by
  cases c with
  | clear => exact ⟨b.within_clear, rfl⟩
  | append text =>
      obtain ⟨kept, hkept⟩ := append_keeps hb text
      refine ⟨hkept.within, ?_⟩
      rw [call, hkept.buffer]

theorem after_within (limit : Nat) (calls : List Call) :
    ((new limit).after calls).Within ∧ ((new limit).after calls).limit = limit := by
  have hnew : (new limit).Within := Nat.zero_le _
  suffices h : ∀ b : PrintBuffer, b.Within →
      (b.after calls).Within ∧ (b.after calls).limit = b.limit from h (new limit) hnew
  induction calls with
  | nil => exact fun b hb => ⟨hb, rfl⟩
  | cons c calls ih =>
      intro b hb
      obtain ⟨hcall, hlimit⟩ := call_within hb c
      obtain ⟨hafter, hlimit'⟩ := ih (b.call c) hcall
      exact ⟨hafter, hlimit'.trans hlimit⟩

theorem sinceClear_append (calls : List Call) (text : String) :
    sinceClear (calls ++ [.append text]) = sinceClear calls ++ [text] := by
  rw [sinceClear, List.foldl_append]
  rfl

theorem sinceClear_clear (calls : List Call) : sinceClear (calls ++ [.clear]) = [] := by
  rw [sinceClear, List.foldl_append]
  rfl

theorem join_concat (texts : List String) (text : String) :
    String.join (texts ++ [text]) = String.join texts ++ text := by
  rw [String.join, List.foldl_append]
  rfl

/-! ## Texts of single bytes -/

open Text.Utf8 (encode)

/-- Every character is a single byte. -/
def Ascii (text : String) : Prop := ∀ c ∈ text.toList, c.toNat < 128

instance Ascii.decidable (text : String) : Decidable (Ascii text) :=
  List.decidableBAll (Char.toNat · < 128) text.toList

theorem encode_append (s t : String) : encode (s ++ t) = encode s ++ encode t := by
  rw [encode, String.toList_append, List.flatMap_append]
  rfl

theorem length_encode (s : String) : (encode s).length = s.utf8ByteSize := by
  have hlist : ∀ cs : List Char,
      (cs.flatMap String.utf8EncodeChar).length = (String.ofList cs).utf8ByteSize := by
    intro cs
    induction cs with
    | nil => rfl
    | cons c cs ih =>
        rw [List.flatMap_cons, List.length_append, String.length_utf8EncodeChar, ih, size_cons]
  rw [encode, hlist, String.ofList_toList]

theorem encode_ascii {cs : List Char} (h : ∀ c ∈ cs, c.toNat < 128) :
    encode (String.ofList cs) = cs.map fun c => UInt8.ofNat c.toNat := by
  induction cs with
  | nil => rfl
  | cons c cs ih =>
      rw [List.forall_mem_cons] at h
      have hbyte : String.utf8EncodeChar c = [UInt8.ofNat c.toNat] := by
        rw [Text.Utf8.encodeChar_eq, if_pos (by omega)]
      rw [Text.Utf8.encode_ofList_cons, ih h.2, hbyte]
      rfl

/-- Of a text of single bytes as many are kept as there is room for. -/
theorem Keeps.encode_eq {text : String} (htext : Ascii text) {kept : List Char}
    (h : b.Keeps text.toList kept b') :
    encode (String.ofList kept) = (encode text).take (b.limit - b.text.utf8ByteSize) := by
  have hsize : ∀ p, p <+: text.toList → (String.ofList p).utf8ByteSize = p.length := by
    intro p hp
    rw [← length_encode, encode_ascii fun c hc => htext c (hp.subset hc), List.length_map]
  -- the length of what is kept is the lesser of the text's and the room
  have hroom := (h.longest kept h.start).2 (Nat.le_refl _)
  have hmost := h.longest (text.toList.take (b.limit - b.text.utf8ByteSize)) (List.take_prefix _ _)
  rw [hsize _ h.start] at hroom
  rw [hsize _ (List.take_prefix _ _), List.length_take] at hmost
  have hle := h.start.length_le
  have hkept : kept = text.toList.take (b.limit - b.text.utf8ByteSize) := by
    rw [List.prefix_iff_eq_take.1 h.start, List.take_eq_take_iff]
    omega
  have hbytes : encode text = text.toList.map fun c => UInt8.ofNat c.toNat := by
    rw [← encode_ascii htext, String.ofList_toList]
  rw [hbytes, ← List.map_take, ← hkept, encode_ascii fun c hc => htext c (h.start.subset hc)]

theorem encode_append_ascii (hb : b.Within) {before text : String} (htext : Ascii text)
    (hbefore : encode b.text = (encode before).take b.limit) :
    encode (b.append text).1.text = (encode (before ++ text)).take b.limit := by
  obtain ⟨kept, hkept⟩ := append_keeps hb text
  have hsize : b.limit - b.text.utf8ByteSize = b.limit - (encode before).length := by
    rw [← length_encode, hbefore, List.length_take]
    omega
  rw [hkept.buffer, encode_append, encode_append, List.take_append, hbefore,
    hkept.encode_eq htext, hsize]

/-- A buffer to which only texts of single bytes were added, since it was last cleared, holds the
first bytes of all of them. -/
theorem encode_after (limit : Nat) (calls : List Call)
    (hascii : ∀ text ∈ sinceClear calls, Ascii text) :
    encode ((new limit).after calls).text =
      (encode (String.join (sinceClear calls))).take limit := by
  -- from the end: the last call decides whether what was there before still counts
  induction calls using List.reverseRecOn with
  | nil => exact (List.take_nil ..).symm
  | append_singleton calls c ih =>
      have hafter : (new limit).after (calls ++ [c]) = ((new limit).after calls).call c := by
        rw [after, List.foldl_append]
        rfl
      cases c with
      | clear =>
          rw [hafter, sinceClear_clear]
          exact (List.take_nil ..).symm
      | append text =>
          rw [sinceClear_append] at hascii ⊢
          rw [List.forall_mem_append, List.forall_mem_singleton] at hascii
          obtain ⟨hwithin, hlimit⟩ := after_within limit calls
          have hbefore : encode ((new limit).after calls).text =
              (encode (String.join (sinceClear calls))).take ((new limit).after calls).limit := by
            rw [hlimit]
            exact ih hascii.1
          rw [hafter, call, encode_append_ascii hwithin hascii.2 hbefore, hlimit, join_concat]

end MapScript.PrintBuffer
