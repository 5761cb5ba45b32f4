import MapScript.Instruction.Decode
import MapScript.Image.Basic

/-!
# Exploring the code

Every cell that execution can reach from the declared entry points is decoded once. The search
keeps a stack of cells to look at; each look either drops a cell or decodes one for the first time
and adds at most two, so the search ends.
-/

namespace MapScript

/-- Why the code of an image is refused. -/
inductive CodeError where
  | decode (cause : DecodeError)
  /-- The instruction at `pc` is the last of the code area and falls through. -/
  | fallsOff (pc : Nat)
deriving DecidableEq, Repr

namespace CodeError

/-- The causes of an error, outermost first. -/
def causes : CodeError → List String
  | decode cause => cause.causes
  | fallsOff pc => [s!"execution falls off the end of the code area after cell {pc}"]

end CodeError

/-- The cells that may be run after the instruction at `pc`, the one to look at first in front. -/
def Decoded.successors (d : Decoded) (codeEnd pc : Nat) : Except CodeError (List Nat) :=
  if d.instruction.fallsThrough then
    if d.next < codeEnd then .ok (d.instruction.branchTarget?.toList ++ [d.next])
    else .error (.fallsOff pc)
  else .ok d.instruction.branchTarget?.toList

theorem Decoded.length_successors {d : Decoded} {codeEnd pc : Nat} {cells : List Nat}
    (h : d.successors codeEnd pc = .ok cells) : cells.length ≤ 2 := by
  have hb : d.instruction.branchTarget?.toList.length ≤ 1 := by
    cases d.instruction.branchTarget? <;> simp
  unfold Decoded.successors at h
  split at h
  · split at h
    · cases h
      simp only [List.length_append, List.length_singleton]
      omega
    · cases h
  · cases h
    omega

/-- A search in progress: what has been decoded and the cells still to look at. -/
structure Exploration (code : Array Int32) where
  slots : Vector (Option Decoded) code.size
  pending : List Nat

namespace Exploration

variable {code : Array Int32}

/-- Nothing decoded yet. The entry declared last is looked at first. -/
def start (code : Array Int32) (entries : List Nat) : Exploration code :=
  { slots := Vector.replicate code.size none, pending := entries.reverse }

/-- Looks at one cell that is not decoded. -/
def visit (e : Exploration code) (pc : Nat) (inside : pc < code.size) (rest : List Nat) :
    Except CodeError (Exploration code) :=
  match decodeAt code pc inside with
  | .error cause => .error (.decode cause)
  | .ok d =>
    match d.successors code.size pc with
    | .error cause => .error cause
    | .ok cells => .ok { slots := e.slots.set pc (some d), pending := cells ++ rest }

/-- Looks at a cell, with others still to look at. One that is decoded is passed over. -/
def look (e : Exploration code) (pc : Nat) (rest : List Nat) :
    Except CodeError (Exploration code) :=
  if inside : pc < code.size then
    if e.slots[pc].isSome then .ok { e with pending := rest }
    else e.visit pc inside rest
  else .ok { e with pending := rest }

/-- The number of cells not decoded. -/
def unseen (e : Exploration code) : Nat := e.slots.countP Option.isNone

/-- Bounds the steps still to come. -/
def measure (e : Exploration code) : Nat := 2 * e.unseen + e.pending.length

theorem measure_start (entries : List Nat) :
    (start code entries).measure = entries.length + 2 * code.size := by
  have hunseen : (start code entries).unseen = code.size := by
    rw [unseen, start, Vector.countP_replicate]
    rfl
  rw [measure, hunseen, start, List.length_reverse, Nat.add_comm]

theorem unseen_set {e : Exploration code} {pc : Nat} (inside : pc < code.size) (d : Decoded)
    (h : e.slots[pc].isSome = false) :
    (e.slots.set pc (some d)).countP Option.isNone + 1 = e.unseen := by
  have hpos : 0 < e.unseen := by
    rw [unseen, Vector.countP_pos_iff]
    exact ⟨e.slots[pc], by simp, by simpa using h⟩
  rw [Vector.countP_set]
  have : e.slots[pc].isNone = true := by simpa using h
  simp only [this, if_true, Option.isNone_some, Bool.false_eq_true, if_false, Nat.add_zero]
  unfold unseen at *
  omega

theorem measure_visit {e e' : Exploration code} {pc : Nat} {inside : pc < code.size}
    {rest : List Nat} (hp : e.pending = pc :: rest) (hs : e.slots[pc].isSome = false)
    (h : e.visit pc inside rest = .ok e') : e'.measure < e.measure := by
  unfold visit at h
  split at h
  · cases h
  · rename_i d _
    split at h
    · cases h
    · rename_i cells hc
      cases h
      have h1 := unseen_set inside d hs
      have h2 := Decoded.length_successors hc
      simp only [measure, unseen, hp, List.length_append, List.length_cons] at *
      omega

theorem measure_look {e e' : Exploration code} {pc : Nat} {rest : List Nat}
    (hp : e.pending = pc :: rest) (h : e.look pc rest = .ok e') : e'.measure < e.measure := by
  unfold look at h
  split at h
  · split at h
    · cases h
      simp [measure, unseen, hp]
    · rename_i hs
      exact measure_visit hp (by simpa using hs) h
  · cases h
    simp [measure, unseen, hp]

/-- Looks at the pending cells until there are none. -/
def run (e : Exploration code) : Except CodeError Program :=
  match _hp : e.pending with
  | [] => .ok ⟨e.slots.toArray⟩
  | pc :: rest =>
    match _h : e.look pc rest with
    | .error cause => .error cause
    | .ok e' => run e'
termination_by e.measure
decreasing_by exact measure_look ‹_› ‹_›

end Exploration

/-- Decodes every cell of the code area that can be reached from the entries. -/
def decodeReachable (code : Array Int32) (entries : List Nat) : Except CodeError Program :=
  (Exploration.start code entries).run

end MapScript
