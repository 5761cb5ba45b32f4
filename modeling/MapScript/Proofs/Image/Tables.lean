import Mathlib.Data.List.Forall2
import MapScript.Image.Parser
import MapScript.Proofs.Image.Reachability

/-!
# The tables of an image

What the readers of the script and string tables accept, said without their
error handling, and what every image that was read is known to satisfy.
-/

namespace MapScript

theorem bind_eq_ok_iff {ε α β : Type} {x : Except ε α} {f : α → Except ε β} {b : β} :
    (x >>= f) = .ok b ↔ ∃ a, x = .ok a ∧ f a = .ok b := by
  cases x with
  | error e => simp [bind, Except.bind]
  | ok a => simp [bind, Except.bind]

namespace Image

/-! ## Script records -/

/-- The script a record of the script table declares. -/
structure Declares (codeEnd : Nat) (record : Int32 × Int32 × Int32) (info : ScriptInfo) :
    Prop where
  entry : codeCell codeEnd record.2.1 = .ok info.entry
  args_nonneg : 0 ≤ record.2.2
  args_le : record.2.2.toInt.toNat ≤ maxArgCount
  argCount : info.argCount = record.2.2.toInt.toNat
  number : info.number =
    if openScriptBase ≤ record.1 then record.1 - openScriptBase else record.1
  isOpen : info.isOpen = decide (openScriptBase ≤ record.1)

theorem readScript_eq_ok_iff {codeEnd index : Nat} {record : Int32 × Int32 × Int32}
    {info : ScriptInfo} :
    readScript codeEnd index record = .ok info ↔ Declares codeEnd record info := by
  obtain ⟨number, offset, argc⟩ := record
  simp only [readScript]
  constructor
  · intro h
    split at h
    · cases h
    · rename_i entry hentry
      split at h
      · rename_i hargs
        cases h
        exact ⟨hentry, hargs.1, hargs.2, rfl, rfl, rfl⟩
      · cases h
  · rintro ⟨hentry, hnonneg, hle, hcount, hnumber, hopen⟩
    simp only at hentry hnonneg hle
    rw [hentry]
    simp only
    rw [if_pos ⟨hnonneg, hle⟩]
    cases info
    simp_all

/-- Script records are accepted when each declares a script and no number comes
twice. -/
theorem readScripts_eq_ok_iff {codeEnd index : Nat} {before : List ScriptInfo}
    {table : List (Int32 × Int32 × Int32)} {infos : List ScriptInfo} :
    readScripts codeEnd index before table = .ok infos ↔
      List.Forall₂ (Declares codeEnd) table infos ∧
      (∀ info ∈ infos, ∀ old ∈ before, old.number ≠ info.number) ∧
      infos.Pairwise (fun a b => a.number ≠ b.number) := by
  induction table generalizing index before infos with
  | nil =>
      simp only [readScripts, Except.ok.injEq, List.forall₂_nil_left_iff]
      constructor
      · rintro rfl
        simp
      · exact fun h => h.1.symm
  | cons record table ih =>
      simp only [readScripts, bind_eq_ok_iff, readScript_eq_ok_iff, List.forall₂_cons_left_iff]
      constructor
      · rintro ⟨info, hinfo, h⟩
        split at h
        · cases h
        · rename_i hnew
          obtain ⟨rest, hrest, h⟩ := bind_eq_ok_iff.1 h
          cases h
          obtain ⟨hall, hbefore, hpair⟩ := ih.1 hrest
          refine ⟨⟨info, rest, hinfo, hall, rfl⟩, ?_, ?_⟩
          · intro i hi old hold
            rcases List.mem_cons.1 hi with rfl | hi
            · simp only [List.any_eq_true, decide_eq_true_eq, not_exists, not_and] at hnew
              exact hnew old hold
            · exact hbefore i hi old (List.mem_cons_of_mem _ hold)
          · rw [List.pairwise_cons]
            exact ⟨fun i hi => hbefore i hi info List.mem_cons_self, hpair⟩
      · rintro ⟨⟨info, rest, hinfo, hall, rfl⟩, hbefore, hpair⟩
        rw [List.pairwise_cons] at hpair
        refine ⟨info, hinfo, ?_⟩
        rw [if_neg]
        · refine bind_eq_ok_iff.2 ⟨rest, ih.2 ⟨hall, ?_, hpair.2⟩, rfl⟩
          intro i hi old hold
          rcases List.mem_cons.1 hold with rfl | hold
          · exact hpair.1 i hi
          · exact hbefore i (List.mem_cons_of_mem _ hi) old hold
        · simp only [List.any_eq_true, decide_eq_true_eq, not_exists, not_and]
          exact hbefore info List.mem_cons_self

theorem entry_lt_of_readScripts {codeEnd : Nat} {table : List (Int32 × Int32 × Int32)}
    {infos : List ScriptInfo} (h : readScripts codeEnd 0 [] table = .ok infos) :
    ∀ pc ∈ infos.map (·.entry), pc < codeEnd := by
  have hall := (readScripts_eq_ok_iff.1 h).1
  clear h
  induction hall with
  | nil => simp
  | cons hinfo _ ih =>
      rw [List.map_cons, List.forall_mem_cons]
      exact ⟨(codeCell_eq_ok hinfo.entry).2.1, ih⟩

/-! ## Whole images -/

/-- The bytes hold an image whose info table starts with a script count, goes on
with the words `table`, and names the texts `strings`. -/
structure Holds (bytes : List UInt8) (scriptCount : Nat) (table : List UInt32)
    (strings : List String) (image : Image) : Prop where
  signed : bytes.take 4 = signature
  offset_le : headerSize ≤ infoOffset bytes
  offset_lt : infoOffset bytes < bytes.length
  count : readCount .script (Word.split (bytes.drop (infoOffset bytes))) = .ok (scriptCount, table)
  fits : 3 * scriptCount ≤ table.length
  scripts : readScripts (codeArea bytes).size 0 [] (records (table.take (3 * scriptCount))) =
    .ok image.scripts
  stringTable : readStringTable bytes scriptCount (table.drop (3 * scriptCount)) = .ok strings
  strings : image.strings = strings.toArray
  program : decodeReachable (codeArea bytes) (image.scripts.map (·.entry)) = .ok image.program
  byteSize : image.byteSize = bytes.length

theorem parse_eq_ok_iff {bytes : List UInt8} (hlen : headerSize ≤ bytes.length) {image : Image} :
    parse bytes = .ok image ↔
      ∃ scriptCount table strings, Holds bytes scriptCount table strings image := by
  unfold parse
  rw [if_neg (by omega)]
  constructor
  · intro h
    split at h
    · cases h
    · rename_i hsigned
      split at h
      · rename_i hoffset
        obtain ⟨⟨count, table⟩, hcount, h⟩ := bind_eq_ok_iff.1 h
        simp only at h
        split at h
        · rename_i hfits
          obtain ⟨infos, hinfos, h⟩ := bind_eq_ok_iff.1 h
          obtain ⟨strings, hstrings, h⟩ := bind_eq_ok_iff.1 h
          split at h
          · cases h
          · rename_i program hprogram
            cases h
            exact ⟨count, table, strings, not_not.1 hsigned, hoffset.1, hoffset.2, hcount, hfits,
              hinfos, hstrings, rfl, hprogram, rfl⟩
        · cases h
      · cases h
  · rintro ⟨count, table, strings, h⟩
    rw [if_neg (not_not.2 h.signed), if_pos ⟨h.offset_le, h.offset_lt⟩]
    refine bind_eq_ok_iff.2 ⟨_, h.count, ?_⟩
    simp only
    rw [if_pos h.fits]
    refine bind_eq_ok_iff.2 ⟨_, h.scripts, bind_eq_ok_iff.2 ⟨_, h.stringTable, ?_⟩⟩
    rw [h.program, ← h.strings, ← h.byteSize]
    rfl

/-- What running the scripts of an image relies on. -/
structure Sound (image : Image) : Prop where
  closed : image.program.Closed
  entries : ∀ info ∈ image.scripts, image.program.isBoundary info.entry = true
  numbers : image.scripts.Pairwise (fun a b => a.number ≠ b.number)

theorem sound_empty : Image.empty.Sound := by
  refine ⟨⟨?_, ?_⟩, ?_, List.Pairwise.nil⟩
  · intro pc d hd
    simp [Image.empty, Program.empty, Program.fetch] at hd
  · intro pc d cell hd
    simp [Image.empty, Program.empty, Program.fetch] at hd
  · intro info hinfo
    cases hinfo

/-- Every image that was read is sound, whatever its bytes. -/
theorem sound_of_parse {bytes : List UInt8} {image : Image} (h : parse bytes = .ok image) :
    image.Sound := by
  by_cases hlen : bytes.length < headerSize
  · rw [parse, if_pos hlen] at h
    cases h
    exact sound_empty
  · obtain ⟨count, table, strings, hholds⟩ := (parse_eq_ok_iff (by omega)).1 h
    have hentries := entry_lt_of_readScripts hholds.scripts
    refine ⟨closed_decodeReachable hentries hholds.program, ?_,
      (readScripts_eq_ok_iff.1 hholds.scripts).2.2⟩
    intro info hinfo
    rw [isBoundary_decodeReachable hentries hholds.program]
    exact .entry (List.mem_map_of_mem hinfo)

end Image

end MapScript
