import MapScript.Json.Reading

/-!
# Arguments of line specials

A line special has five arguments. Fewer are filled up with zeros.
-/

namespace MapScript

/-- The number of arguments a line special takes. -/
def specialArgCount : Nat := 5

/-- Arguments of a line special, unused places zero. -/
abbrev SpecialArgs := Vector Int32 specialArgCount

namespace SpecialArgs

def zero : SpecialArgs := Vector.replicate specialArgCount 0

/-- The first five of a list of arguments, zeros in the places it does not reach. -/
def ofList (args : List Int32) : SpecialArgs :=
  Vector.ofFn fun i => args.getD i 0

def toJson (args : SpecialArgs) : Json := .list .int32 args.toList

def ofJson? (j : Json) : Option SpecialArgs := j.vector? specialArgCount Json.int32?

@[simp] theorem ofList_nil : ofList [] = zero := rfl

theorem toList_ofList {values : List Int32} (h : values.length ≤ specialArgCount) :
    (ofList values).toList =
      values ++ List.replicate (specialArgCount - values.length) 0 := by
  apply List.ext_getElem
  · simp only [Vector.length_toList, List.length_append, List.length_replicate]
    omega
  · intro i hi hi'
    simp only [ofList, Vector.getElem_toList, Vector.getElem_ofFn]
    by_cases hvalue : i < values.length
    · rw [List.getElem_append_left hvalue, List.getD_eq_getElem?_getD,
        List.getElem?_eq_getElem hvalue, Option.getD_some]
    · rw [List.getElem_append_right (by omega), List.getElem_replicate,
        List.getD_eq_getElem?_getD, List.getElem?_eq_none (by omega), Option.getD_none]

theorem getElem_ofList_of_le {values : List Int32} {k : Fin specialArgCount}
    (h : values.length ≤ k) : (ofList values)[k] = 0 := by
  simp only [ofList, Fin.getElem_fin, Vector.getElem_ofFn, List.getD_eq_getElem?_getD,
    List.getElem?_eq_none h, Option.getD_none]

/-- Arguments are those that are used, where the rest are zero. -/
theorem ofList_take {args : SpecialArgs} {argc : Nat}
    (h : ∀ k : Fin specialArgCount, argc ≤ k → args[k] = 0) :
    ofList (args.toList.take argc) = args := by
  apply Vector.ext
  intro k hk
  simp only [ofList, Vector.getElem_ofFn, List.getD_eq_getElem?_getD]
  by_cases hused : k < argc
  · rw [List.getElem?_take_of_lt hused, List.getElem?_eq_getElem (by simpa using hk),
      Vector.getElem_toList, Option.getD_some]
  · rw [List.getElem?_eq_none (by rw [List.length_take]; omega), Option.getD_none]
    exact (h ⟨k, hk⟩ (by simpa using hused)).symm

end SpecialArgs

end MapScript
