import Mathlib.Data.List.Forall2
import MapScript.CommandLine.Start
import MapScript.Proofs.Image.Tables
import MapScript.Proofs.Text.Blank
import MapScript.Proofs.Text.Decimal

/-!
# The texts that are start requests

`Spells` is the grammar of start requests: a number, or a number, a colon and a list of numbers with
commas between them.  A text is read exactly if it spells a request with no more arguments than
there are places, and what is read is what it spells; every way to write a request with white space
around its numbers is read back.
-/

namespace MapScript

namespace CommandLine

open Text (Blank isBlank trim)
open Text.Decimal (Denotes)

/-! ## Numbers with white space around them -/

/-- The number that a text with white space around it stands for. -/
inductive Spaced : List Char → Int32 → Prop
  | mk {before digits after : List Char} {n : Int32} (hbefore : Blank before)
      (hafter : Blank after) (hdigits : Denotes digits n.toInt) :
      Spaced (before ++ digits ++ after) n

theorem isBlank_of_denotes {cs : List Char} {n : Int} (h : Denotes cs n) {c : Char} (hc : c ∈ cs) :
    isBlank c = false := by
  rcases h.digit_or_sign hc with hdigit | rfl | rfl
  · rw [Char.isDigit, Bool.and_eq_true, decide_eq_true_eq, decide_eq_true_eq] at hdigit
    have hlow : 48 ≤ c.toNat := hdigit.1
    have hhigh : c.toNat ≤ 57 := hdigit.2
    simp only [isBlank, Bool.or_eq_false_iff, Bool.and_eq_false_iff, decide_eq_false_iff_not,
      beq_eq_false_iff_ne]
    omega
  · rfl
  · rfl

theorem trimmedInt_eq_ok_iff {cs : List Char} {n : Int32} :
    trimmedInt cs = .ok n ↔ Spaced cs n := by
  rw [trimmedInt, Text.Decimal.readInt32_eq_ok_iff]
  constructor
  · intro h
    obtain ⟨before, after, hbefore, hafter, hcs⟩ := Text.exists_eq_around_trim cs
    rw [hcs]
    exact ⟨hbefore, hafter, h⟩
  · rintro ⟨hbefore, hafter, hdigits⟩
    rwa [Text.trim_around hbefore hafter hdigits.ne_nil fun c => isBlank_of_denotes hdigits]

theorem Spaced.trim_ne_nil {cs : List Char} {n : Int32} (h : Spaced cs n) : trim cs ≠ [] := by
  obtain ⟨hbefore, hafter, hdigits⟩ := h
  rw [Text.trim_around hbefore hafter hdigits.ne_nil fun c => isBlank_of_denotes hdigits]
  exact hdigits.ne_nil

theorem Spaced.of_mem {cs : List Char} {n : Int32} (h : Spaced cs n) {c : Char} (hc : c ∈ cs) :
    isBlank c = true ∨ c.isDigit = true ∨ c = '+' ∨ c = '-' := by
  obtain ⟨hbefore, hafter, hdigits⟩ := h
  rcases List.mem_append.1 hc with hc | hc
  · rcases List.mem_append.1 hc with hc | hc
    · exact .inl (hbefore c hc)
    · exact .inr (hdigits.digit_or_sign hc)
  · exact .inl (hafter c hc)

theorem Spaced.no_colon {cs : List Char} {n : Int32} (h : Spaced cs n) : ':' ∉ cs :=
  fun hc => absurd (h.of_mem hc) (by decide)

theorem Spaced.no_comma {cs : List Char} {n : Int32} (h : Spaced cs n) : ',' ∉ cs :=
  fun hc => absurd (h.of_mem hc) (by decide)

/-! ## Lists of numbers -/

/-- The arguments that the part after the colon stands for. -/
inductive Lists : List Char → List Int32 → Prop
  | none {cs : List Char} (hblank : Blank cs) : Lists cs []
  | some {pieces : List (List Char)} {values : List Int32} (hsome : pieces ≠ [])
      (hvalues : List.Forall₂ Spaced pieces values) : Lists ([','].intercalate pieces) values

theorem splitAt_eq_splitOn (sep : Char) (cs : List Char) : splitAt sep cs = cs.splitOn sep := by
  induction cs with
  | nil => rfl
  | cons c cs ih =>
      rw [splitAt, List.splitOn_cons_eq_if_modifyHead, ih]
      by_cases hc : c = sep
      · rw [if_pos hc, if_pos (beq_iff_eq.2 hc)]
      · rw [if_neg hc, if_neg (mt beq_iff_eq.1 hc)]
        cases hpieces : cs.splitOn sep with
        | nil => exact absurd hpieces (List.splitOn_ne_nil sep cs)
        | cons piece pieces => rfl

theorem mapM_eq_ok_iff {ε α β : Type} {f : α → Except ε β} {xs : List α} {ys : List β} :
    xs.mapM f = .ok ys ↔ List.Forall₂ (fun x y => f x = .ok y) xs ys := by
  induction xs generalizing ys with
  | nil =>
      rw [List.forall₂_nil_left_iff]
      exact ⟨fun h => (Except.ok.inj h).symm, fun h => h ▸ rfl⟩
  | cons x xs ih =>
      rw [List.mapM_cons, bind_eq_ok_iff, List.forall₂_cons_left_iff]
      constructor
      · rintro ⟨y, hy, h⟩
        obtain ⟨ys', hys', h⟩ := bind_eq_ok_iff.1 h
        exact ⟨y, ys', hy, ih.1 hys', (Except.ok.inj h).symm⟩
      · rintro ⟨y, ys', hy, hys', rfl⟩
        exact ⟨y, hy, bind_eq_ok_iff.2 ⟨ys', ih.2 hys', rfl⟩⟩

theorem mapM_splitAt_eq_ok_iff {cs : List Char} {values : List Int32} :
    (splitAt ',' cs).mapM trimmedInt = .ok values ↔
      List.Forall₂ Spaced (cs.splitOn ',') values := by
  rw [mapM_eq_ok_iff, splitAt_eq_splitOn]
  simp only [trimmedInt_eq_ok_iff]

theorem splitOn_pieces {pieces : List (List Char)} {values : List Int32} (hsome : pieces ≠ [])
    (hvalues : List.Forall₂ Spaced pieces values) :
    ([','].intercalate pieces).splitOn ',' = pieces := by
  have hcommas := (List.forall₂_and_left _ _).1 (hvalues.imp fun _ _ h => ⟨h.no_comma, h⟩)
  exact List.splitOn_intercalate ',' hcommas.1 hsome

theorem trim_pieces_ne_nil {pieces : List (List Char)} {values : List Int32}
    (hsome : pieces ≠ []) (hvalues : List.Forall₂ Spaced pieces values) :
    trim ([','].intercalate pieces) ≠ [] := by
  intro htrim
  have hblank := Text.trim_eq_nil_iff.1 htrim
  have hcomma : ',' ∉ [','].intercalate pieces := fun h => absurd (hblank ',' h) (by decide)
  -- a blank text is a single piece, and no number
  have hone := List.splitOn_eq_singleton hcomma
  rw [splitOn_pieces hsome hvalues] at hone
  rw [hone] at hvalues
  obtain ⟨n, _, hn, -⟩ := List.forall₂_cons_left_iff.1 hvalues
  exact hn.trim_ne_nil htrim

theorem readArgs_of_lists {raw : String} {cs : List Char} {values : List Int32}
    (h : Lists cs values) :
    readArgs raw cs = if values.length ≤ specialArgCount then .ok (.ofList values)
      else .error (.tooManyArguments raw values.length) := by
  cases h with
  | none hblank => rw [readArgs, if_pos (Text.trim_eq_nil_iff.2 hblank)]; rfl
  | some hsome hvalues =>
      have hread := mapM_splitAt_eq_ok_iff.2 ((splitOn_pieces hsome hvalues).symm ▸ hvalues)
      rw [readArgs, if_neg (trim_pieces_ne_nil hsome hvalues), hread]

theorem lists_of_readArgs {raw : String} {cs : List Char} {args : SpecialArgs}
    (h : readArgs raw cs = .ok args) :
    ∃ values, Lists cs values ∧ values.length ≤ specialArgCount ∧ args = .ofList values := by
  rw [readArgs] at h
  split at h
  · rename_i htrim
    cases h
    exact ⟨[], .none (Text.trim_eq_nil_iff.1 htrim), Nat.zero_le _, rfl⟩
  · split at h
    · cases h
    · rename_i values hread
      split at h
      · rename_i hcount
        cases h
        have hlists := Lists.some (List.splitOn_ne_nil ',' cs) (mapM_splitAt_eq_ok_iff.1 hread)
        rw [List.intercalate_splitOn] at hlists
        exact ⟨values, hlists, hcount, rfl⟩
      · cases h

/-! ## Whole requests -/

/-- The script number and the arguments that a text stands for.  No number has a colon in it, so the
colon of the second form is the first one of the text. -/
inductive Spells : List Char → Int32 → List Int32 → Prop
  | bare {cs : List Char} {script : Int32} (hscript : Spaced cs script) : Spells cs script []
  | args {before rest : List Char} {script : Int32} {values : List Int32}
      (hscript : Spaced before script) (hargs : Lists rest values) :
      Spells (before ++ ':' :: rest) script values

theorem cut_at_colon {before : List Char} (h : ':' ∉ before) (rest : List Char) :
    (before ++ rest).takeWhile (· ≠ ':') = before ++ rest.takeWhile (· ≠ ':') ∧
      (before ++ rest).dropWhile (· ≠ ':') = rest.dropWhile (· ≠ ':') := by
  have hbefore : ∀ c ∈ before, decide (c ≠ ':') = true :=
    fun c hc => decide_eq_true fun heq => h (heq ▸ hc)
  exact ⟨List.takeWhile_append_of_pos hbefore, List.dropWhile_append_of_pos hbefore⟩

theorem readStart_of_spells {raw : String} {script : Int32} {values : List Int32}
    (h : Spells raw.toList script values) :
    readStart raw = if values.length ≤ specialArgCount then .ok ⟨script, .ofList values⟩
      else .error (.tooManyArguments raw values.length) := by
  rw [readStart]
  generalize raw.toList = cs at h ⊢
  cases h with
  | bare hscript =>
      obtain ⟨htake, hdrop⟩ := cut_at_colon hscript.no_colon []
      rw [List.takeWhile_nil, List.append_nil] at htake
      rw [List.dropWhile_nil, List.append_nil] at hdrop
      simp only [htake, hdrop, trimmedInt_eq_ok_iff.2 hscript]
      rfl
  | @args before rest _ _ hscript hargs =>
      obtain ⟨htake, hdrop⟩ := cut_at_colon hscript.no_colon (':' :: rest)
      rw [List.takeWhile_cons_of_neg (by decide), List.append_nil] at htake
      rw [List.dropWhile_cons_of_neg (by decide)] at hdrop
      simp only [htake, hdrop, trimmedInt_eq_ok_iff.2 hscript, readArgs_of_lists hargs]
      split
      · rfl
      · rfl

theorem spells_of_readStart {raw : String} {request : StartRequest}
    (h : readStart raw = .ok request) :
    ∃ values, Spells raw.toList request.script values ∧ values.length ≤ specialArgCount ∧
      request.args = .ofList values := by
  have hraw := List.takeWhile_append_dropWhile (p := (· ≠ ':')) (l := raw.toList)
  simp only [readStart] at h
  split at h
  · cases h
  · rename_i script hscript
    have hscript := trimmedInt_eq_ok_iff.1 hscript
    split at h
    · rename_i hdrop
      cases h
      rw [hdrop, List.append_nil] at hraw
      rw [hraw] at hscript
      exact ⟨[], .bare hscript, Nat.zero_le _, rfl⟩
    · rename_i c rest hdrop
      have hc : c = ':' := by
        have hhead := List.head?_dropWhile_not (· ≠ ':') raw.toList
        rw [hdrop] at hhead
        simpa using hhead
      obtain ⟨args, hargs, h⟩ := bind_eq_ok_iff.1 h
      cases h
      obtain ⟨values, hlists, hcount, rfl⟩ := lists_of_readArgs hargs
      rw [hdrop, hc] at hraw
      rw [← hraw]
      exact ⟨values, .args hscript hlists, hcount, rfl⟩

/-! ## Written requests -/

/-- A number and the white space it is written with. -/
structure Padded where
  value : Int32
  before : List Char
  after : List Char
  before_blank : Blank before
  after_blank : Blank after

def Padded.text (n : Padded) : List Char :=
  n.before ++ (toString n.value.toInt).toList ++ n.after

theorem Padded.spaced (n : Padded) : Spaced n.text n.value :=
  ⟨n.before_blank, n.after_blank, Text.Decimal.denotes_toString n.value.toInt⟩

/-- A request with all of its arguments, as `--start` takes it. -/
def written (script : Padded) (args : List Padded) : String :=
  String.ofList (script.text ++ ':' :: [','].intercalate (args.map Padded.text))

theorem spells_written (script : Padded) (args : List Padded) :
    Spells (written script args).toList script.value (args.map Padded.value) := by
  rw [written, String.toList_ofList]
  refine .args script.spaced ?_
  by_cases hargs : args = []
  · rw [hargs]
    exact .none (List.forall_mem_nil _)
  · refine .some (mt List.map_eq_nil_iff.1 hargs) ?_
    rw [List.forall₂_map_left_iff, List.forall₂_map_right_iff, List.forall₂_same]
    exact fun n _ => n.spaced

/-- A text is read as a request exactly if it spells one whose arguments have a place each, and then
the places that are left hold zeros. -/
theorem readStart_accepts_spelled :
    (∀ (raw : String) (request : StartRequest), readStart raw = .ok request ↔
      ∃ values, Spells raw.toList request.script values ∧ values.length ≤ specialArgCount ∧
        request.args.toList = values ++ List.replicate (specialArgCount - values.length) 0) ∧
    ∀ (script : Padded) (args : List Padded),
      (args.length ≤ specialArgCount →
        ∃ request, readStart (written script args) = .ok request ∧ request.script = script.value ∧
          request.args.toList =
            args.map Padded.value ++ List.replicate (specialArgCount - args.length) 0) ∧
      (specialArgCount < args.length →
        readStart (written script args) =
          .error (.tooManyArguments (written script args) args.length)) := by
  refine ⟨fun raw request => ⟨?_, ?_⟩, fun script args => ⟨?_, ?_⟩⟩
  · intro h
    obtain ⟨values, hspells, hcount, hargs⟩ := spells_of_readStart h
    exact ⟨values, hspells, hcount, hargs ▸ SpecialArgs.toList_ofList hcount⟩
  · rintro ⟨values, hspells, hcount, hargs⟩
    rw [← SpecialArgs.toList_ofList hcount, Vector.toList_inj] at hargs
    rw [readStart_of_spells hspells, if_pos hcount, ← hargs]
  · intro hcount
    have hread := readStart_of_spells (spells_written script args)
    rw [List.length_map, if_pos hcount] at hread
    refine ⟨_, hread, rfl, ?_⟩
    rw [SpecialArgs.toList_ofList (by rwa [List.length_map]), List.length_map]
  · intro hcount
    rw [readStart_of_spells (spells_written script args), List.length_map,
      if_neg (Nat.not_le.2 hcount)]

theorem readStart_accepts_spelled_extremes :
    ∃ request, readStart "\t-2147483648 : 2147483647,-1" = .ok request ∧
      request.script = -2147483648 ∧ request.args.toList = [2147483647, -1, 0, 0, 0] := by
  have h := (readStart_accepts_spelled.2 ⟨-2147483648, ['\t'], [' '], by decide, by decide⟩
    [⟨2147483647, [' '], [], by decide, by decide⟩, ⟨-1, [], [], by decide, by decide⟩]).1
      (by decide)
  exact h

end CommandLine

end MapScript
