import Mathlib.Data.List.DropRight
import MapScript.Text.Blank

/-!
# What trimming leaves

A text is its trimmed part with white space around it, and of a part without white space that has
white space around it trimming gives that part.
-/

namespace MapScript.Text

/-- Nothing but white space. -/
def Blank (cs : List Char) : Prop := ∀ c ∈ cs, isBlank c = true

instance Blank.decidable (cs : List Char) : Decidable (Blank cs) :=
  List.decidableBAll (isBlank · = true) cs

theorem Blank.append {cs ds : List Char} (hcs : Blank cs) (hds : Blank ds) : Blank (cs ++ ds) :=
  List.forall_mem_append.2 ⟨hcs, hds⟩

theorem trim_eq (cs : List Char) :
    trim cs = (cs.dropWhile isBlank).rdropWhile isBlank :=
  rfl

theorem exists_eq_around_trim (cs : List Char) :
    ∃ before after, Blank before ∧ Blank after ∧ cs = before ++ trim cs ++ after := by
  refine ⟨cs.takeWhile isBlank, (cs.dropWhile isBlank).rtakeWhile isBlank,
    fun c => List.mem_takeWhile_imp, fun c => List.mem_rtakeWhile_imp, ?_⟩
  rw [trim_eq, List.append_assoc, List.rdropWhile_append_rtakeWhile,
    List.takeWhile_append_dropWhile]

theorem trim_eq_nil_iff {cs : List Char} : trim cs = [] ↔ Blank cs := by
  constructor
  · intro h
    obtain ⟨before, after, hbefore, hafter, heq⟩ := exists_eq_around_trim cs
    rw [h, List.append_nil] at heq
    rw [heq]
    exact hbefore.append hafter
  · intro h
    rw [trim_eq, List.dropWhile_eq_nil_iff.2 h, List.rdropWhile_nil]

theorem trim_around {before cs after : List Char} (hbefore : Blank before) (hafter : Blank after)
    (hsome : cs ≠ []) (hcs : ∀ c ∈ cs, isBlank c = false) : trim (before ++ cs ++ after) = cs := by
  have hstart : (cs ++ after).dropWhile isBlank = cs ++ after := by
    obtain ⟨c, ds, rfl⟩ := List.exists_cons_of_ne_nil hsome
    rw [List.cons_append, List.dropWhile_cons_of_neg]
    exact Bool.eq_false_iff.1 (hcs c List.mem_cons_self)
  have hend : (cs ++ after).rdropWhile isBlank = cs.rdropWhile isBlank := by
    rw [List.rdropWhile, List.rdropWhile, List.reverse_append, List.dropWhile_append_of_pos]
    exact fun c hc => hafter c (List.mem_reverse.1 hc)
  rw [trim_eq, List.append_assoc, List.dropWhile_append_of_pos hbefore, hstart, hend,
    List.rdropWhile_eq_self_iff]
  exact fun hne => Bool.eq_false_iff.1 (hcs _ (List.getLast_mem hne))

end MapScript.Text
