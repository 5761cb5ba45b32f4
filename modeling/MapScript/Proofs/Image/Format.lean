import MapScript.Proofs.Image.Tables

/-!
# The format of an image

`Format` says which byte strings are images, in terms of the words at byte offsets and without any
reading order.  The main statement is `parse_accepts_format`: an image is read exactly from the
bytes of this format, and what is read is what the tables say.
-/

namespace MapScript

namespace Image

/-! ## Words at offsets -/

/-- The word at a byte offset. -/
def wordAt (bytes : List UInt8) (offset : Nat) : UInt32 :=
  Word.ofBytes (bytes.getD offset 0) (bytes.getD (offset + 1) 0) (bytes.getD (offset + 2) 0)
    (bytes.getD (offset + 3) 0)

/-- The same word as a signed number. -/
def intAt (bytes : List UInt8) (offset : Nat) : Int32 := (wordAt bytes offset).toInt32

theorem wordAt_drop (bytes : List UInt8) (start offset : Nat) :
    wordAt (bytes.drop start) offset = wordAt bytes (start + offset) := by
  simp only [wordAt, List.getD_eq_getElem?_getD, List.getElem?_drop, Nat.add_assoc]

theorem split_eq_map (bytes : List UInt8) :
    Word.split bytes = (List.range (bytes.length / 4)).map fun k => wordAt bytes (4 * k) := by
  fun_induction Word.split bytes with
  | case1 a b c d rest ih =>
      have hlength : (a :: b :: c :: d :: rest).length / 4 = rest.length / 4 + 1 := by
        simp only [List.length_cons]
        omega
      have htail : ∀ k, wordAt (a :: b :: c :: d :: rest) (4 * (k + 1)) = wordAt rest (4 * k) := by
        intro k
        rw [Nat.mul_succ, Nat.add_comm, ← wordAt_drop]
        rfl
      rw [hlength, List.range_succ_eq_map, List.map_cons, List.map_map, ih]
      exact congrArg _ (List.map_congr_left fun k _ => (htail k).symm)
  | case2 bytes h =>
      have hnil : Word.split bytes = [] := by
        rw [Word.split]
        exact h
      have hshort : bytes.length / 4 = 0 := by
        rw [← Word.length_split, hnil, List.length_nil]
      rw [hshort]
      rfl

theorem split_drop (bytes : List UInt8) (start : Nat) :
    Word.split (bytes.drop start) =
      (List.range ((bytes.length - start) / 4)).map fun k => wordAt bytes (start + 4 * k) := by
  simp only [split_eq_map, List.length_drop, wordAt_drop]

/-! ## The format -/

/-- Where the info table starts. -/
def infoAt (bytes : List UInt8) : Nat := (wordAt bytes 4).toNat

def scriptCount (bytes : List UInt8) : Nat := (intAt bytes (infoAt bytes)).toInt.toNat

/-- Where a script record starts: a number, an entry offset and an argument count. -/
def recordAt (bytes : List UInt8) (i : Nat) : Nat := infoAt bytes + 4 + 12 * i

/-- Where the records end and the string table starts. -/
def stringsAt (bytes : List UInt8) : Nat := recordAt bytes (scriptCount bytes)

/-- A string table that is missing counts no string. -/
def stringCount (bytes : List UInt8) : Nat :=
  if stringsAt bytes + 4 ≤ bytes.length then (intAt bytes (stringsAt bytes)).toInt.toNat else 0

/-- The offset of a string. -/
def stringAt (bytes : List UInt8) (k : Nat) : Nat :=
  (wordAt bytes (stringsAt bytes + 4 + 4 * k)).toNat

/-- The script of a record. -/
def declaredScript (bytes : List UInt8) (i : Nat) : ScriptInfo :=
  let number := intAt bytes (recordAt bytes i)
  { number := if 1000 ≤ number then number - 1000 else number
    entry := (intAt bytes (recordAt bytes i + 4)).toInt.toNat / 4
    argCount := (intAt bytes (recordAt bytes i + 8)).toInt.toNat
    isOpen := 1000 ≤ number }

def declaredScripts (bytes : List UInt8) : List ScriptInfo :=
  (List.range (scriptCount bytes)).map (declaredScript bytes)

/-- The strings of the table: each is the text from its offset up to a zero byte or the end. -/
def declaredStrings (bytes : List UInt8) : List String :=
  (List.range (stringCount bytes)).map fun k =>
    Text.Utf8.decodeLossy ((bytes.drop (stringAt bytes k)).takeWhile (· ≠ 0))

/-- The cells before the info table. -/
def cellsBefore (bytes : List UInt8) : Array Int32 :=
  ((List.range (infoAt bytes / 4)).map fun k => intAt bytes (4 * k)).toArray

/-- A byte offset names a cell of the code area. -/
def NamesCode (bytes : List UInt8) (offset : Int32) : Prop :=
  0 ≤ offset.toInt ∧ offset.toInt % 4 = 0 ∧ 2 ≤ offset.toInt / 4 ∧
    offset.toInt / 4 < (infoAt bytes / 4 : Nat)

/-- The bytes are those of an image with a header. -/
structure Format (bytes : List UInt8) : Prop where
  signed : bytes.take 4 = [0x41, 0x43, 0x53, 0x00]
  info_ge : 8 ≤ infoAt bytes
  info_lt : infoAt bytes < bytes.length
  count_fits : infoAt bytes + 4 ≤ bytes.length
  count_nonneg : 0 ≤ (intAt bytes (infoAt bytes)).toInt
  records_fit : infoAt bytes + 4 + 12 * scriptCount bytes ≤ bytes.length
  entries : ∀ i < scriptCount bytes, NamesCode bytes (intAt bytes (recordAt bytes i + 4))
  arguments : ∀ i < scriptCount bytes, 0 ≤ (intAt bytes (recordAt bytes i + 8)).toInt ∧
    (intAt bytes (recordAt bytes i + 8)).toInt ≤ 10
  numbers : ∀ i j, i < j → j < scriptCount bytes →
    (declaredScript bytes i).number ≠ (declaredScript bytes j).number
  strings : scriptCount bytes = 0 ∧ bytes.length < stringsAt bytes + 4 ∨
    stringsAt bytes + 4 ≤ bytes.length ∧ 0 ≤ (intAt bytes (stringsAt bytes)).toInt ∧
      stringsAt bytes + 4 + 4 * stringCount bytes ≤ bytes.length ∧
      ∀ k < stringCount bytes, stringAt bytes k < bytes.length
  code : ∃ program, decodeReachable (cellsBefore bytes)
    ((declaredScripts bytes).map (·.entry)) = .ok program

/-! ## What the readers see -/

variable {bytes : List UInt8}

theorem split_drop_cons {start : Nat} (h : start + 4 ≤ bytes.length) :
    Word.split (bytes.drop start) = wordAt bytes start :: Word.split (bytes.drop (start + 4)) := by
  have hcount : (bytes.length - start) / 4 = (bytes.length - (start + 4)) / 4 + 1 := by omega
  rw [split_drop, split_drop, hcount, List.range_succ_eq_map, List.map_cons, List.map_map]
  refine congrArg _ (List.map_congr_left fun k _ => ?_)
  simp only [Function.comp_apply, Nat.mul_succ, Nat.add_assoc, Nat.add_comm]

theorem split_drop_eq_nil {start : Nat} (h : bytes.length < start + 4) :
    Word.split (bytes.drop start) = [] := by
  have hcount : (bytes.length - start) / 4 = 0 := by omega
  rw [split_drop, hcount]
  rfl

theorem length_split_drop (bytes : List UInt8) (start : Nat) :
    (Word.split (bytes.drop start)).length = (bytes.length - start) / 4 := by
  rw [Word.length_split, List.length_drop]

theorem drop_split (bytes : List UInt8) (start k : Nat) :
    (Word.split (bytes.drop start)).drop k = Word.split (bytes.drop (start + 4 * k)) := by
  induction k generalizing start with
  | zero => rfl
  | succ k ih =>
      by_cases h : start + 4 ≤ bytes.length
      · rw [split_drop_cons h, List.drop_succ_cons, ih]
        congr 2
        omega
      · rw [split_drop_eq_nil (by omega), split_drop_eq_nil (by omega), List.drop_nil]

theorem take_split {start k : Nat} (h : start + 4 * k ≤ bytes.length) :
    (Word.split (bytes.drop start)).take k =
      (List.range k).map fun j => wordAt bytes (start + 4 * j) := by
  have hmin : min k ((bytes.length - start) / 4) = k := by omega
  rw [split_drop, ← List.map_take, List.take_range, hmin]

theorem infoOffset_eq (hlen : 8 ≤ bytes.length) : infoOffset bytes = infoAt bytes := by
  match bytes with
  | _ :: _ :: _ :: _ :: _ :: _ :: _ :: _ :: _ => rfl

theorem codeArea_eq (hlen : 8 ≤ bytes.length) (hinfo : infoAt bytes < bytes.length) :
    codeArea bytes = cellsBefore bytes := by
  have hfits : 0 + 4 * (infoAt bytes / 4) ≤ bytes.length := by omega
  have htake := take_split hfits
  simp only [List.drop_zero, Nat.zero_add] at htake
  rw [codeArea, infoOffset_eq hlen, cellSize, htake, List.map_toArray, List.map_map]
  rfl

theorem size_cellsBefore (bytes : List UInt8) : (cellsBefore bytes).size = infoAt bytes / 4 := by
  simp [cellsBefore]

/-! ## Counts -/

theorem toNat_toInt_of_nonneg {w : UInt32} (h : 0 ≤ w.toInt32.toInt) :
    w.toInt32.toInt.toNat = w.toNat := by
  have hint : w.toInt32.toInt = w.toBitVec.toInt := rfl
  have hnat : w.toNat = w.toBitVec.toNat := rfl
  have hlt := w.toBitVec.isLt
  rw [hint, BitVec.toInt_eq_toNat_cond] at h ⊢
  rw [hnat]
  split at h <;> omega

theorem readCount_eq_ok_iff {table : ImageTable} {start count : Nat} {rest : List UInt32} :
    readCount table (Word.split (bytes.drop start)) = .ok (count, rest) ↔
      start + 4 ≤ bytes.length ∧ 0 ≤ (intAt bytes start).toInt ∧
      count = (intAt bytes start).toInt.toNat ∧ rest = Word.split (bytes.drop (start + 4)) := by
  by_cases hfits : start + 4 ≤ bytes.length
  · have hneg : (wordAt bytes start).toInt32 < 0 ↔ ¬ 0 ≤ (intAt bytes start).toInt := by
      rw [Int32.lt_iff_toInt_lt, Int.not_le]
      rfl
    rw [split_drop_cons hfits, readCount]
    by_cases hnonneg : 0 ≤ (intAt bytes start).toInt
    · have hcount : (intAt bytes start).toInt.toNat = (wordAt bytes start).toNat :=
        toNat_toInt_of_nonneg hnonneg
      rw [if_neg (fun h => hneg.1 h hnonneg), hcount]
      simp only [Except.ok.injEq, Prod.mk.injEq, hfits, hnonneg, true_and, eq_comm]
    · rw [if_pos (hneg.2 hnonneg)]
      simp [hnonneg]
  · rw [split_drop_eq_nil (by omega), readCount]
    simp [hfits]

/-! ## Scripts -/

/-- The number, entry offset and argument count of the record at an offset. -/
def record (bytes : List UInt8) (start : Nat) : Int32 × Int32 × Int32 :=
  (intAt bytes start, intAt bytes (start + 4), intAt bytes (start + 8))

theorem records_take_succ {start n : Nat} (h : start + 12 ≤ bytes.length) :
    records ((Word.split (bytes.drop start)).take (3 * (n + 1))) =
      record bytes start :: records ((Word.split (bytes.drop (start + 12))).take (3 * n)) := by
  rw [split_drop_cons (by omega), split_drop_cons (by omega), split_drop_cons (by omega),
    Nat.mul_succ, List.take_succ_cons, List.take_succ_cons, List.take_succ_cons, records]
  rfl

theorem records_split {start n : Nat} (h : start + 12 * n ≤ bytes.length) :
    records ((Word.split (bytes.drop start)).take (3 * n)) =
      (List.range n).map fun i => record bytes (start + 12 * i) := by
  induction n generalizing start with
  | zero => rfl
  | succ n ih =>
      have hrest := @ih (start + 12) (by omega)
      rw [records_take_succ (by omega), hrest, List.range_succ_eq_map, List.map_cons, List.map_map]
      refine congrArg _ (List.map_congr_left fun i _ => ?_)
      simp only [Function.comp_apply, Nat.mul_succ, Nat.add_assoc, Nat.add_comm]

theorem codeCell_eq_ok_iff {codeEnd cell : Nat} {offset : Int32} :
    codeCell codeEnd offset = .ok cell ↔
      (0 ≤ offset.toInt ∧ offset.toInt % 4 = 0 ∧ 2 ≤ offset.toInt / 4 ∧
        offset.toInt / 4 < codeEnd) ∧ cell = offset.toInt.toNat / 4 := by
  have hneg : offset < 0 ↔ ¬ 0 ≤ offset.toInt := by
    rw [Int32.lt_iff_toInt_lt, Int.not_le]
    rfl
  unfold codeCell
  split
  · rename_i h
    exact ⟨(fun herror => by cases herror), fun h' => absurd h'.1.1 (hneg.1 h)⟩
  · rename_i h
    have hnonneg : 0 ≤ offset.toInt := Decidable.not_not.1 fun h' => h (hneg.2 h')
    simp only
    split
    · rename_i hunaligned
      refine ⟨(fun herror => by cases herror), fun h' => absurd h'.1.2.1 ?_⟩
      simp only [cellSize] at hunaligned
      omega
    · rename_i haligned
      simp only [cellSize, Decidable.not_not] at haligned
      split
      · rename_i hrange
        simp only [cellSize, headerCells] at hrange ⊢
        rw [Except.ok.injEq, eq_comm]
        exact (and_iff_right (by omega)).symm
      · rename_i hrange
        refine ⟨(fun herror => by cases herror), fun h' => absurd h'.1.2.2 ?_⟩
        simp only [cellSize, headerCells] at hrange
        omega

theorem declares_iff {i : Nat} {info : ScriptInfo} :
    Declares (infoAt bytes / 4) (record bytes (recordAt bytes i)) info ↔
      (NamesCode bytes (intAt bytes (recordAt bytes i + 4)) ∧
        0 ≤ (intAt bytes (recordAt bytes i + 8)).toInt ∧
        (intAt bytes (recordAt bytes i + 8)).toInt ≤ 10) ∧ info = declaredScript bytes i := by
  have hzero : (0 : Int32) ≤ intAt bytes (recordAt bytes i + 8) ↔
      0 ≤ (intAt bytes (recordAt bytes i + 8)).toInt := by
    rw [Int32.le_iff_toInt_le]
    rfl
  have hten : (intAt bytes (recordAt bytes i + 8)).toInt.toNat ≤ maxArgCount ↔
      (intAt bytes (recordAt bytes i + 8)).toInt ≤ 10 := by
    simp only [maxArgCount, VarScope.capacity]
    omega
  constructor
  · rintro ⟨hentry, hnonneg, hle, hargs, hnumber, hopen⟩
    obtain ⟨hnames, hentry⟩ := codeCell_eq_ok_iff.1 hentry
    refine ⟨⟨hnames, hzero.1 hnonneg, hten.1 hle⟩, ?_⟩
    cases info
    simp only [declaredScript, ScriptInfo.mk.injEq]
    exact ⟨hnumber, hentry, hargs, hopen⟩
  · rintro ⟨⟨hnames, hnonneg, hle⟩, rfl⟩
    exact ⟨codeCell_eq_ok_iff.2 ⟨hnames, rfl⟩, hzero.2 hnonneg, hten.2 hle, rfl, rfl, rfl⟩

/-- Related lists where each item decides what it is related to. -/
theorem forall₂_iff_eq_map {α β : Type} {R : α → β → Prop} {P : α → Prop} {f : α → β}
    (hR : ∀ a b, R a b ↔ P a ∧ b = f a) (xs : List α) (ys : List β) :
    List.Forall₂ R xs ys ↔ (∀ a ∈ xs, P a) ∧ ys = xs.map f := by
  have hrelation : R = fun a b => P a ∧ f a = b := by
    funext a b
    exact propext ((hR a b).trans (and_congr_right fun _ => eq_comm))
  rw [hrelation, List.forall₂_and_left, ← List.forall₂_map_left_iff (R := Eq),
    List.forall₂_eq_eq_eq, eq_comm]

theorem pairwise_map_range {α : Type} {R : α → α → Prop} (f : Nat → α) (n : Nat) :
    ((List.range n).map f).Pairwise R ↔ ∀ i j, i < j → j < n → R (f i) (f j) := by
  rw [List.pairwise_iff_getElem]
  simp only [List.length_map, List.length_range, List.getElem_map, List.getElem_range]
  constructor
  · exact fun h i j hij hj => h i j (Nat.lt_trans hij hj) hj hij
  · exact fun h i j _ hj hij => h i j hij hj

theorem readScripts_format_iff {infos : List ScriptInfo}
    (hfits : recordAt bytes (scriptCount bytes) ≤ bytes.length) :
    readScripts (infoAt bytes / 4) 0 []
        (records ((Word.split (bytes.drop (recordAt bytes 0))).take (3 * scriptCount bytes))) =
          .ok infos ↔
      ((∀ i < scriptCount bytes, NamesCode bytes (intAt bytes (recordAt bytes i + 4)) ∧
        0 ≤ (intAt bytes (recordAt bytes i + 8)).toInt ∧
        (intAt bytes (recordAt bytes i + 8)).toInt ≤ 10) ∧ infos = declaredScripts bytes) ∧
      ∀ i j, i < j → j < scriptCount bytes →
        (declaredScript bytes i).number ≠ (declaredScript bytes j).number := by
  have hrecords : recordAt bytes 0 + 12 * scriptCount bytes ≤ bytes.length := by
    simp only [recordAt] at hfits ⊢
    omega
  rw [records_split hrecords, readScripts_eq_ok_iff]
  have hrecord : ∀ i, recordAt bytes 0 + 12 * i = recordAt bytes i := fun i => by
    simp only [recordAt, Nat.mul_zero, Nat.add_zero]
  simp only [hrecord, List.forall₂_map_left_iff]
  have hdeclares := forall₂_iff_eq_map (@declares_iff bytes) (List.range (scriptCount bytes)) infos
  simp only [List.mem_range] at hdeclares
  simp only [hdeclares, List.not_mem_nil, false_implies, implies_true, true_and]
  apply and_congr_right
  rintro ⟨_, rfl⟩
  rw [pairwise_map_range]

/-! ## Strings -/

theorem readStrings_eq_ok_iff {index : Nat} {offsets : List UInt32} {strings : List String} :
    readStrings bytes index offsets = .ok strings ↔
      (∀ offset ∈ offsets, offset.toNat < bytes.length) ∧
      strings = offsets.map fun offset => textAt bytes offset.toNat := by
  induction offsets generalizing index strings with
  | nil => simp [readStrings, eq_comm]
  | cons offset rest ih =>
      rw [readStrings, List.forall_mem_cons, List.map_cons]
      split
      · rename_i hlt
        rw [bind_eq_ok_iff]
        constructor
        · rintro ⟨texts, htexts, h⟩
          cases h
          obtain ⟨hall, rfl⟩ := ih.1 htexts
          exact ⟨⟨hlt, hall⟩, rfl⟩
        · rintro ⟨⟨_, hall⟩, rfl⟩
          exact ⟨_, ih.2 ⟨hall, rfl⟩, rfl⟩
      · rename_i hlt
        exact ⟨(fun herror => by cases herror), fun h => absurd h.1.1 hlt⟩

theorem readStringTable_format_iff {strings : List String} :
    readStringTable bytes (scriptCount bytes) (Word.split (bytes.drop (stringsAt bytes))) =
        .ok strings ↔
      (scriptCount bytes = 0 ∧ bytes.length < stringsAt bytes + 4 ∨
        stringsAt bytes + 4 ≤ bytes.length ∧ 0 ≤ (intAt bytes (stringsAt bytes)).toInt ∧
          stringsAt bytes + 4 + 4 * stringCount bytes ≤ bytes.length ∧
          ∀ k < stringCount bytes, stringAt bytes k < bytes.length) ∧
      strings = declaredStrings bytes := by
  unfold readStringTable
  by_cases hfits : stringsAt bytes + 4 ≤ bytes.length
  · have hcons := split_drop_cons hfits
    have hcount : stringCount bytes = (intAt bytes (stringsAt bytes)).toInt.toNat := if_pos hfits
    have hroom : ∀ n, n ≤ (Word.split (bytes.drop (stringsAt bytes + 4))).length ↔
        stringsAt bytes + 4 + 4 * n ≤ bytes.length := fun n => by
      rw [length_split_drop]
      omega
    have htexts : stringsAt bytes + 4 + 4 * stringCount bytes ≤ bytes.length →
        (readStrings bytes 0 ((Word.split (bytes.drop (stringsAt bytes + 4))).take
            (stringCount bytes)) = .ok strings ↔
          (∀ k < stringCount bytes, stringAt bytes k < bytes.length) ∧
            strings = declaredStrings bytes) := by
      intro htable
      rw [take_split htable, readStrings_eq_ok_iff, List.map_map]
      simp only [List.mem_map, List.mem_range, forall_exists_index, and_imp,
        forall_apply_eq_imp_iff₂]
      exact Iff.rfl
    rw [if_neg (by simp [hcons]), bind_eq_ok_iff]
    constructor
    · rintro ⟨⟨n, offsets⟩, hn, h⟩
      obtain ⟨_, hnonneg, rfl, rfl⟩ := readCount_eq_ok_iff.1 hn
      rw [← hcount] at h
      simp only at h
      split at h
      · rename_i htable
        have htable := (hroom _).1 htable
        obtain ⟨hall, rfl⟩ := (htexts htable).1 h
        exact ⟨.inr ⟨hfits, hnonneg, htable, hall⟩, rfl⟩
      · cases h
    · rintro ⟨hmissing | ⟨_, hnonneg, htable, hall⟩, rfl⟩
      · omega
      · refine ⟨_, readCount_eq_ok_iff.2 ⟨hfits, hnonneg, rfl, rfl⟩, ?_⟩
        simp only [← hcount]
        rw [if_pos ((hroom _).2 htable)]
        exact (htexts htable).2 ⟨hall, rfl⟩
  · -- no count can be read, which is fine without scripts
    have hnil := split_drop_eq_nil (Nat.not_le.1 hfits)
    have hnone : declaredStrings bytes = [] := by
      simp [declaredStrings, stringCount, hfits]
    rw [hnil, hnone]
    by_cases hzero : scriptCount bytes = 0
    · rw [if_pos ⟨hzero, rfl⟩]
      simp [hzero, hfits, Nat.not_le.1 hfits, eq_comm]
    · rw [if_neg (fun h => hzero h.1), bind_eq_ok_iff]
      simp [readCount, hzero, hfits]

/-! ## Whole images -/

theorem holds_iff {image : Image} (hlen : 8 ≤ bytes.length) :
    (∃ count table strings, Holds bytes count table strings image) ↔
      Format bytes ∧ image.scripts = declaredScripts bytes ∧
      image.strings = (declaredStrings bytes).toArray ∧
      decodeReachable (cellsBefore bytes) (image.scripts.map (·.entry)) = .ok image.program ∧
      image.byteSize = bytes.length := by
  have hinfo := infoOffset_eq hlen
  constructor
  · rintro ⟨count, table, strings, h⟩
    have hlt : infoAt bytes < bytes.length := hinfo ▸ h.offset_lt
    have hcode := codeArea_eq hlen hlt
    have hcount := h.count
    rw [hinfo] at hcount
    obtain ⟨hfits, hnonneg, rfl, rfl⟩ := readCount_eq_ok_iff.1 hcount
    have htable := h.fits
    rw [length_split_drop] at htable
    have hrecords : infoAt bytes + 4 + 12 * scriptCount bytes ≤ bytes.length := by
      rw [scriptCount]
      omega
    have hscripts := h.scripts
    rw [hcode, size_cellsBefore] at hscripts
    obtain ⟨⟨hrecord, hscripts⟩, hnumbers⟩ := (readScripts_format_iff hrecords).1 hscripts
    have hstrings := h.stringTable
    rw [drop_split] at hstrings
    have hstart : infoAt bytes + 4 + 4 * (3 * (intAt bytes (infoAt bytes)).toInt.toNat) =
        stringsAt bytes := by
      simp only [stringsAt, recordAt, scriptCount]
      omega
    rw [hstart] at hstrings
    obtain ⟨hstringTable, rfl⟩ := readStringTable_format_iff.1 hstrings
    have hprogram := h.program
    rw [hcode] at hprogram
    refine ⟨⟨h.signed, hinfo ▸ h.offset_le, hlt, hfits, hnonneg, hrecords,
      fun i hi => (hrecord i hi).1, fun i hi => (hrecord i hi).2, hnumbers, hstringTable, ?_⟩,
      hscripts, h.strings, hprogram, h.byteSize⟩
    rw [hscripts] at hprogram
    exact ⟨_, hprogram⟩
  · rintro ⟨h, hscripts, hstrings, hprogram, hsize⟩
    have hcode := codeArea_eq hlen h.info_lt
    have hrecords := h.records_fit
    refine ⟨scriptCount bytes, Word.split (bytes.drop (infoAt bytes + 4)), declaredStrings bytes,
      h.signed, hinfo ▸ h.info_ge, hinfo ▸ h.info_lt, ?_, ?_, ?_, ?_, hstrings, ?_, hsize⟩
    · rw [hinfo]
      exact readCount_eq_ok_iff.2 ⟨h.count_fits, h.count_nonneg, rfl, rfl⟩
    · rw [length_split_drop]
      omega
    · rw [hcode, size_cellsBefore]
      exact (readScripts_format_iff hrecords).2
        ⟨⟨fun i hi => ⟨h.entries i hi, h.arguments i hi⟩, hscripts⟩, h.numbers⟩
    · have hstart : infoAt bytes + 4 + 4 * (3 * scriptCount bytes) = stringsAt bytes := by
        simp only [stringsAt, recordAt]
        omega
      rw [drop_split, hstart]
      exact readStringTable_format_iff.2 ⟨h.strings, rfl⟩
    · rw [hcode]
      exact hprogram

/-- Exactly the byte strings of the format are read, and an image holds what the tables say. -/
theorem parse_accepts_format (bytes : List UInt8) :
    (bytes.length < 8 → parse bytes = .ok .empty) ∧
    ((∃ image, parse bytes = .ok image) ↔ bytes.length < 8 ∨ Format bytes) ∧
    ∀ image, 8 ≤ bytes.length → parse bytes = .ok image →
      image.scripts = declaredScripts bytes ∧
      image.strings = (declaredStrings bytes).toArray ∧
      decodeReachable (cellsBefore bytes) (image.scripts.map (·.entry)) = .ok image.program ∧
      image.byteSize = bytes.length := by
  have hshort : bytes.length < 8 → parse bytes = .ok .empty := fun h => by
    rw [parse, if_pos (show bytes.length < headerSize from h)]
  have hlong : ∀ image, 8 ≤ bytes.length → (parse bytes = .ok image ↔ _) := fun image h =>
    (parse_eq_ok_iff h).trans (holds_iff h)
  refine ⟨hshort, ?_, fun image h himage => ((hlong image h).1 himage).2⟩
  constructor
  · rintro ⟨image, himage⟩
    by_cases h : bytes.length < 8
    · exact .inl h
    · exact .inr ((hlong image (by omega)).1 himage).1
  · rintro (h | h)
    · exact ⟨_, hshort h⟩
    · have hlen : 8 ≤ bytes.length := Nat.le_of_lt (Nat.lt_of_le_of_lt h.info_ge h.info_lt)
      obtain ⟨program, hprogram⟩ := h.code
      exact ⟨⟨declaredScripts bytes, (declaredStrings bytes).toArray, program, bytes.length⟩,
        (hlong _ hlen).2 ⟨h, rfl, rfl, hprogram, rfl⟩⟩

end Image

end MapScript
