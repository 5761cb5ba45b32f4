import Mathlib.Data.List.Nodup
import MapScript.Proofs.Json.Documents
import MapScript.Json.Reading

/-!
# Values read back

`Faithful write read a` says that the way `a` is written is one that survives its text, and that
reading gives `a` again.  Each kind of value has one lemma, stated for any way of writing and
reading its parts.
-/

namespace MapScript.Json

variable {α : Type} {write : α → Json} {read : Json → Option α}

structure Faithful (write : α → Json) (read : Json → Option α) (a : α) : Prop where
  written : (write a).Written
  back : read (write a) = some a

namespace Faithful

/-- A faithful value survives being written to a text. -/
theorem text_back {a : α} (h : Faithful write read a) :
    (parse? (write a).compact).bind read = some a := by
  rw [parse?, parse_compact h.written]
  exact h.back

/-! ## Numbers -/

theorem within_back {low high n : Int} (hlow : low ≤ n) (hhigh : n ≤ high) :
    within? low high (.int n) = some n :=
  if_pos ⟨hlow, hhigh⟩

theorem int32 (n : Int32) : Faithful .int32 int32? n := by
  refine ⟨trivial, ?_⟩
  have hlow : -2147483648 ≤ n.toInt := n.le_toInt
  have hhigh : n.toInt < 2147483648 := n.toInt_lt
  rw [int32?, Json.int32, within_back hlow (by omega), Option.map_some, Int32.ofInt_toInt]

theorem uint32 (n : UInt32) : Faithful .uint32 uint32? n := by
  refine ⟨trivial, ?_⟩
  have hhigh : n.toNat < 4294967296 := n.toNat_lt
  rw [uint32?, Json.uint32, within_back (by omega) (by omega), Option.map_some, Int.toNat_natCast,
    UInt32.ofNat_toNat]

theorem size {n : Nat} (hn : n < 18446744073709551616) : Faithful .nat size? n := by
  refine ⟨trivial, ?_⟩
  rw [size?, nat, within_back (by omega) (by omega), Option.map_some, Int.toNat_natCast]

/-! ## Rows -/

theorem mapM_back {items : List α} (h : ∀ a ∈ items, Faithful write read a) :
    (items.map write).mapM read = some items := by
  induction items with
  | nil => rfl
  | cons a items ih =>
      rw [List.forall_mem_cons] at h
      rw [List.map_cons, List.mapM_cons, h.1.back, ih h.2]
      rfl

theorem list {items : List α} (h : ∀ a ∈ items, Faithful write read a) :
    Faithful (.list write) (list? read) items :=
  ⟨written_list fun a ha => (h a ha).written, mapM_back h⟩

theorem vector {n : Nat} {v : Vector α n} (h : ∀ a ∈ v.toList, Faithful write read a) :
    Faithful (fun v => Json.list write v.toList) (vector? n read) v := by
  refine ⟨(list h).written, ?_⟩
  have hsize : v.toList.toArray.size = n := by
    rw [List.size_toArray, Vector.length_toList]
  rw [vector?, (list h).back, Option.bind_eq_bind, Option.bind_some, dif_pos hsize]
  rfl

/-- A value that is never written as nothing may be missing. -/
theorem nullable (hnull : ∀ a, write a ≠ .null) {o : Option α}
    (h : ∀ a ∈ o, Faithful write read a) : Faithful (.nullable write) (nullable? read) o := by
  cases o with
  | none => exact ⟨trivial, rfl⟩
  | some a =>
      refine ⟨(h a rfl).written, ?_⟩
      have hback := (h a rfl).back
      unfold nullable?
      split
      · rename_i hvalue
        exact absurd hvalue (hnull a)
      · rw [Json.nullable, hback]
        rfl

end Faithful

/-! ## Records -/

theorem members?_record (ms : List (String × Json)) : (record ms).members? = some ms := by
  induction ms with
  | nil => rfl
  | cons m ms ih =>
      rw [record, members?] at ih ⊢
      rw [List.map_cons, List.mapM_cons, ih]
      rfl

theorem atMostOnce_of_nodup {ms : List (String × Json)} (h : (ms.map (·.1)).Nodup) (name : String) :
    atMostOnce ms name = true := by
  have hcount : ms.countP (·.1 == name) = (ms.map (·.1)).count name := by
    rw [List.count, List.countP_map]
    rfl
  rw [atMostOnce, hcount, decide_eq_true_eq]
  exact List.nodup_iff_count_le_one.1 h name

/-- The fields of a record are its members, when their names are all different. -/
theorem fields?_record {names : List String} {ms : List (String × Json)}
    (hnames : ms.map (·.1) = names) (hnodup : names.Nodup) :
    (record ms).fields? names = some ms := by
  have honce : names.all (atMostOnce ms) = true :=
    List.all_eq_true.2 fun name _ => atMostOnce_of_nodup (hnames ▸ hnodup) name
  rw [record, fields?, ← record, members?_record, Option.bind_eq_bind, Option.bind_some,
    if_pos honce]
  intro vs hvs
  cases hvs

section

variable {name other : String} {v : Json} {ms : List (String × Json)}

theorem lookup_cons_of_ne (h : name ≠ other) :
    ((other, v) :: ms).lookup name = ms.lookup name := by
  rw [List.lookup_cons, beq_eq_false_iff_ne.2 h]

@[simp] theorem required?_cons_self : required? name read ((name, v) :: ms) = read v := by
  simp [required?]

@[simp] theorem required?_cons_of_ne (h : name ≠ other) :
    required? name read ((other, v) :: ms) = required? name read ms := by
  rw [required?, required?, lookup_cons_of_ne h]

@[simp] theorem optional?_cons_self :
    optional? name read ((name, v) :: ms) = v.nullable? read := by
  simp [optional?]

@[simp] theorem optional?_cons_of_ne (h : name ≠ other) :
    optional? name read ((other, v) :: ms) = optional? name read ms := by
  rw [optional?, optional?, lookup_cons_of_ne h]

end

end MapScript.Json
