import MapScript.Instruction.Basic
import MapScript.Json.Reading

/-!
# Variable stores

A fixed number of integer variables. Reading outside the store gives zero, and writing outside it
changes nothing.
-/

namespace MapScript

structure VarStore (n : Nat) where
  values : Vector Int32 n
deriving DecidableEq, Repr

/-- The variables of one script instance, its arguments first. -/
abbrev ScriptVars := VarStore (VarScope.capacity .script)

/-- The variables of the loaded map. -/
abbrev MapVars := VarStore (VarScope.capacity .map)

/-- The variables of the game. -/
abbrev WorldVars := VarStore (VarScope.capacity .world)

namespace VarStore

variable {n : Nat}

def zero : VarStore n := ⟨Vector.replicate n 0⟩

def get (s : VarStore n) (i : Nat) : Int32 := s.values[i]?.getD 0

def set (s : VarStore n) (i : Nat) (value : Int32) : VarStore n :=
  ⟨s.values.setIfInBounds i value⟩

/-- The first values of a store, the others zero. -/
def ofList (values : List Int32) : VarStore n := ⟨Vector.ofFn fun i => values.getD i 0⟩

def toList (s : VarStore n) : List Int32 := s.values.toList

@[simp] theorem get_zero (i : Nat) : (zero : VarStore n).get i = 0 := by
  simp only [get, zero, Vector.getElem?_replicate]
  split <;> rfl

theorem get_set (s : VarStore n) (i j : Nat) (value : Int32) :
    (s.set i value).get j = if i = j ∧ j < n then value else s.get j := by
  simp only [get, set, Vector.getElem?_setIfInBounds]
  by_cases hij : i = j
  · subst hij
    by_cases hi : i < n <;> simp [hi]
  · simp [hij]

theorem get_ofList (values : List Int32) (i : Nat) :
    (ofList values : VarStore n).get i = if i < n then values.getD i 0 else 0 := by
  rw [get, ofList, Vector.getElem?_ofFn]
  split <;> rfl

def toJson (s : VarStore n) : Json := .list .int32 s.toList

def ofJson? (j : Json) : Option (VarStore n) := return ⟨← j.vector? n Json.int32?⟩

end VarStore

end MapScript
