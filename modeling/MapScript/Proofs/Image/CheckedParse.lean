import MapScript.Proofs.Image.CheckedCode
import MapScript.Proofs.Image.Format

/-!
# Reading an image with every access checked

The reader of images over an array of bytes and a position, with the accesses of
`MapScript.Proofs.Image.CheckedCode`.  Reading the head of a table may meet the end of the bytes,
which is an error; behind the check that the table fits, it would be a slip.

The main result is `Checked.parse_never_slips`: on fewer than `2 ^ 32` bytes, whatever they are,
no access misses and the outcome is that of `Image.parse`.
-/

namespace MapScript

namespace Checked

variable {ε : Type}

/-! ## The reader -/

/-- The difference, which has to be a number of 32 bits again. -/
def minus (a b : Int32) : Checked ε Int32 :=
  if -2147483648 ≤ a.toInt - b.toInt ∧ a.toInt - b.toInt < 2147483648 then pure (a - b)
  else slip .overflow

/-- The word of four bytes. -/
def word (bytes : Array UInt8) : Checked ε UInt32 := do
  return Word.ofBytes (← index bytes 0) (← index bytes 1) (← index bytes 2) (← index bytes 3)

def wordAt (bytes : Array UInt8) (position : Nat) : Checked ε UInt32 := do
  word (← range bytes position (← add position 4))

def readCells (bytes : Array UInt8) : Checked ε (Array Int32) := do
  let cells ← (List.range (bytes.size / cellSize)).mapM fun k => do
    return (← wordAt bytes (cellSize * k)).toInt32
  return cells.toArray

def readCount (table : ImageTable) (bytes : Array UInt8) (position : Nat) :
    Checked ImageError Nat := do
  if (← add position 4) ≤ bytes.size then
    let count := (← wordAt bytes position).toInt32
    if count < 0 then throw (.negativeCount table count) else return count.toInt.toNat
  else throw (.noCount table)

/-- Whether a table of `count` items of `size` bytes ends in the image. The product is only used
where it is a size. -/
def fits (bytes : Array UInt8) (position count size : Nat) : Checked ε Bool := do
  if count * size < sizeLimit then return decide ((← add position (count * size)) ≤ bytes.size)
  else return false

def readScript (codeEnd place : Nat) (number offset argc : Int32) :
    Checked ImageError ScriptInfo := do
  let entry ← done ((codeCell codeEnd offset).mapError (.badEntry place))
  if 0 ≤ argc ∧ argc.toInt.toNat ≤ Image.maxArgCount then
    if Image.openScriptBase ≤ number then
      return ⟨← minus number Image.openScriptBase, entry, argc.toInt.toNat, true⟩
    else return ⟨number, entry, argc.toInt.toNat, false⟩
  else throw (.badArgCount place argc)

def readScripts (bytes : Array UInt8) (codeEnd : Nat) :
    Nat → Nat → Nat → List ScriptInfo → Checked ImageError (List ScriptInfo)
  | 0, _, _, _ => pure []
  | n + 1, place, position, before => do
    let info ← readScript codeEnd place (← wordAt bytes position).toInt32
      (← wordAt bytes (← add position 4)).toInt32 (← wordAt bytes (← add position 8)).toInt32
    if before.any (·.number = info.number) then throw (.repeatedScript info.number)
    else
      let rest ← readScripts bytes codeEnd n (place + 1) (← add position 12) (info :: before)
      return info :: rest

def readText (bytes : Array UInt8) (place offset : Nat) : Checked ImageError String := do
  if offset < bytes.size then
    let rest ← range bytes offset bytes.size
    let stop ← match rest.toList.findIdx? (· = 0) with
      | some length => add offset length
      | none => pure bytes.size
    return Text.Utf8.decodeLossy (← range bytes offset stop).toList
  else throw (.badStringOffset place offset bytes.size)

def readStrings (bytes : Array UInt8) : Nat → Nat → Nat → Checked ImageError (List String)
  | 0, _, _ => pure []
  | n + 1, place, position => do
    let offset ← wordAt bytes position
    let text ← readText bytes place offset.toNat
    return text :: (← readStrings bytes n (place + 1) (← add position 4))

def readStringTable (bytes : Array UInt8) (scriptCount position : Nat) :
    Checked ImageError (List String) := do
  if scriptCount = 0 ∧ bytes.size < (← add position 4) then return []
  else
    let count ← readCount .string bytes position
    let offsets ← add position 4
    if ← fits bytes offsets count cellSize then readStrings bytes count 0 offsets
    else throw (.tableTooLong .string count)

/-- Reads the tables at `info` and then the code before them. -/
def readTables (bytes : Array UInt8) (cells : Array Int32) (info : Nat) :
    Checked ImageError Image := do
  let codeEnd := info / cellSize
  let count ← readCount .script bytes info
  let records ← add info 4
  if ← fits bytes records count 12 then
    let scripts ← readScripts bytes codeEnd count 0 records []
    let strings ← readStringTable bytes count (← add records (count * 12))
    let program ← ExceptT.adapt .badCode (decodeReachable cells codeEnd (scripts.map (·.entry)))
    return { scripts, strings := strings.toArray, program, byteSize := bytes.size }
  else throw (.tableTooLong .script count)

def parse (bytes : Array UInt8) : Checked ImageError Image := do
  if bytes.size < Image.headerSize then return .empty
  else if (← range bytes 0 4).toList ≠ Image.signature then throw .badSignature
  else
    let cells ← readCells bytes
    let info := (← word (← range bytes 4 8)).toNat
    if Image.headerSize ≤ info ∧ info < bytes.size then readTables bytes cells info
    else throw (.badInfoOffset info bytes.size)

/-! ## Words and counts -/

section

variable {bytes : List UInt8} (hsmall : bytes.length < 4294967296)

theorem word_eq {position : Nat} (h : position + 4 ≤ bytes.length) :
    (word (bytes.toArray.extract position (position + 4)) : Checked ε UInt32) =
      pure (Image.wordAt bytes position) := by
  have hbyte : ∀ k < 4, (index (bytes.toArray.extract position (position + 4)) k :
      Checked ε UInt8) = pure (bytes.getD (position + k) 0) := by
    intro k hk
    have hsize : k < (bytes.toArray.extract position (position + 4)).size := by
      rw [Array.size_extract, List.size_toArray]
      omega
    rw [index_eq hsize, Array.getElem_extract, List.getElem_toArray, List.getD_eq_getElem?_getD,
      List.getElem?_eq_getElem (by omega), Option.getD_some]
  rw [word, hbyte 0 (by omega), hbyte 1 (by omega), hbyte 2 (by omega), hbyte 3 (by omega)]
  rfl

theorem mapM_eq {α β : Type} {f : α → Checked ε β} {g : α → β} {xs : List α}
    (h : ∀ x ∈ xs, f x = pure (g x)) : xs.mapM f = pure (xs.map g) := by
  induction xs with
  | nil => rfl
  | cons x xs ih =>
      rw [List.forall_mem_cons] at h
      rw [List.mapM_cons, h.1, pure_bind, ih h.2, pure_bind, List.map_cons]

include hsmall

theorem add_position {position k : Nat} (h : position + k ≤ bytes.length + 4) :
    (add position k : Checked ε Nat) = pure (position + k) := by
  apply add_eq
  rw [sizeLimit]
  omega

theorem wordAt_eq {position : Nat} (h : position + 4 ≤ bytes.length) :
    (wordAt bytes.toArray position : Checked ε UInt32) = pure (Image.wordAt bytes position) := by
  rw [wordAt, add_position hsmall (by omega), pure_bind,
    range_eq (by omega) (by rw [List.size_toArray]; exact h), pure_bind, word_eq h]

theorem readCells_eq :
    (readCells bytes.toArray : Checked ε (Array Int32)) =
      pure ((Word.split bytes).toArray.map UInt32.toInt32) := by
  have hcell : ∀ k ∈ List.range (bytes.toArray.size / cellSize),
      (do return (← wordAt bytes.toArray (cellSize * k)).toInt32 : Checked ε Int32) =
        pure (Image.wordAt bytes (4 * k)).toInt32 := by
    intro k hk
    rw [List.mem_range, List.size_toArray, cellSize] at hk
    rw [cellSize, wordAt_eq hsmall (by omega), pure_bind]
  rw [readCells, mapM_eq hcell, pure_bind, Image.split_eq_map, List.size_toArray,
    List.map_toArray, List.map_map]
  rfl

/-- Reading the head of a table and going on, from the words behind it or from their position. -/
theorem readCount_bind {α : Type} {table : ImageTable} {position : Nat}
    {f : Nat → Checked ImageError α} {g : Nat × List UInt32 → Except ImageError α}
    (h : position ≤ bytes.length)
    (hnext : ∀ count < 4294967296, position + 4 ≤ bytes.length →
      f count = done (g (count, Word.split (bytes.drop (position + 4))))) :
    (readCount table bytes.toArray position >>= f) =
      done (Image.readCount table (Word.split (bytes.drop position)) >>= g) := by
  rw [readCount, add_position hsmall (by omega), pure_bind, List.size_toArray]
  by_cases hfits : position + 4 ≤ bytes.length
  · rw [if_pos hfits, wordAt_eq hsmall hfits, pure_bind, Image.split_drop_cons hfits,
      Image.readCount]
    by_cases hneg : (Image.wordAt bytes position).toInt32 < 0
    · rw [if_pos hneg, if_pos hneg]
      rfl
    · have hnonneg : 0 ≤ (Image.wordAt bytes position).toInt32.toInt := by
        rw [Int32.lt_iff_toInt_lt, Int.not_lt] at hneg
        exact hneg
      rw [if_neg hneg, if_neg hneg, Image.toNat_toInt_of_nonneg hnonneg, pure_bind]
      exact hnext _ (Image.wordAt bytes position).toNat_lt hfits
  · rw [if_neg hfits, Image.split_drop_eq_nil (by omega)]
    rfl

/-! ## Scripts -/

omit hsmall in
theorem readScript_eq (codeEnd place : Nat) (number offset argc : Int32) :
    readScript codeEnd place number offset argc =
      done (Image.readScript codeEnd place (number, offset, argc)) := by
  rw [readScript, done_mapError_bind, Image.readScript]
  cases codeCell codeEnd offset with
  | error cause => rfl
  | ok entry =>
      simp only
      by_cases hargc : 0 ≤ argc ∧ argc.toInt.toNat ≤ Image.maxArgCount
      · rw [if_pos hargc, if_pos hargc]
        by_cases hopen : Image.openScriptBase ≤ number
        · have hlow : 1000 ≤ number.toInt := Int32.le_iff_toInt_le.1 hopen
          have hhigh : number.toInt < 2147483648 := number.toInt_lt
          have hminus : (minus number Image.openScriptBase : Checked ImageError Int32) =
              pure (number - Image.openScriptBase) := by
            apply if_pos
            rw [show Image.openScriptBase.toInt = 1000 from rfl]
            omega
          rw [if_pos hopen, hminus, pure_bind]
          simp only [hopen, if_true, decide_true]
          rfl
        · rw [if_neg hopen]
          simp only [hopen, if_false, decide_false]
          rfl
      · rw [if_neg hargc, if_neg hargc]
        rfl

theorem readScripts_eq (codeEnd : Nat) {n place position : Nat} {before : List ScriptInfo}
    (h : position + 12 * n ≤ bytes.length) :
    readScripts bytes.toArray codeEnd n place position before =
      done (Image.readScripts codeEnd place before
        (Image.records ((Word.split (bytes.drop position)).take (3 * n)))) := by
  induction n generalizing place position before with
  | zero => rfl
  | succ n ih =>
      rw [Image.records_take_succ (by omega), Image.readScripts, readScripts,
        wordAt_eq hsmall (by omega), pure_bind, add_position hsmall (by omega), pure_bind,
        wordAt_eq hsmall (by omega), pure_bind, add_position hsmall (by omega), pure_bind,
        wordAt_eq hsmall (by omega), pure_bind, readScript_eq]
      apply done_bind_eq
      intro info _
      by_cases hknown : before.any (·.number = info.number) = true
      · rw [if_pos hknown, if_pos hknown]
        rfl
      · rw [if_neg hknown, if_neg hknown, add_position hsmall (by omega), pure_bind,
          ih (by omega)]
        exact done_bind_eq fun _ _ => rfl

/-! ## Strings -/

theorem readText_eq {place offset : Nat} (h : offset < bytes.length) :
    readText bytes.toArray place offset = pure (Image.textAt bytes offset) := by
  have hslice : ∀ stop ≤ bytes.length, offset ≤ stop →
      (range bytes.toArray offset stop : Checked ImageError (Array UInt8)) =
        pure ((bytes.drop offset).take (stop - offset)).toArray := by
    intro stop hstop hoffset
    rw [range_eq hoffset (by rw [List.size_toArray]; exact hstop), List.extract_toArray,
      List.extract_eq_take_drop]
  have hrest : (bytes.drop offset).take (bytes.length - offset) = bytes.drop offset :=
    List.take_of_length_le (Nat.le_of_eq List.length_drop)
  rw [readText, List.size_toArray, if_pos h, hslice _ (Nat.le_refl _) (by omega), pure_bind, hrest,
    Image.textAt]
  have htext : (bytes.drop offset).takeWhile (· ≠ 0) =
      (bytes.drop offset).take ((bytes.drop offset).findIdx (· = 0)) := by
    rw [List.takeWhile_eq_take_findIdx_not]
    simp
  cases hzero : (bytes.drop offset).findIdx? (· = 0) with
  | none =>
      have hend := List.findIdx_eq_length.2 (List.findIdx?_eq_none_iff.1 hzero)
      simp only [pure_bind]
      rw [hslice _ (Nat.le_refl _) (by omega), pure_bind, hrest, htext, hend, List.take_length]
  | some length =>
      obtain ⟨hlength, hend⟩ := List.findIdx?_eq_some_iff_findIdx_eq.1 hzero
      rw [List.length_drop] at hlength
      simp only
      rw [add_position hsmall (by omega), pure_bind, hslice _ (by omega) (by omega), pure_bind,
        htext, hend, Nat.add_sub_cancel_left]

theorem readStrings_eq {n place position : Nat} (h : position + 4 * n ≤ bytes.length) :
    readStrings bytes.toArray n place position =
      done (Image.readStrings bytes place ((Word.split (bytes.drop position)).take n)) := by
  induction n generalizing place position with
  | zero => rfl
  | succ n ih =>
      rw [Image.split_drop_cons (by omega), List.take_succ_cons, Image.readStrings, readStrings,
        wordAt_eq hsmall (by omega), pure_bind]
      by_cases hinside : (Image.wordAt bytes position).toNat < bytes.length
      · rw [if_pos hinside, readText_eq hsmall hinside, pure_bind, add_position hsmall (by omega),
          pure_bind, ih (by omega)]
        exact done_bind_eq fun _ _ => rfl
      · rw [if_neg hinside, readText, List.size_toArray, if_neg hinside]
        rfl

theorem fits_eq {position count size : Nat} (hposition : position ≤ bytes.length)
    (hcount : count < 4294967296) (hsize : size ≤ 12) :
    (fits bytes.toArray position count size : Checked ε Bool) =
      pure (decide (position + count * size ≤ bytes.length)) := by
  have hproduct : count * size ≤ 4294967296 * 12 :=
    Nat.mul_le_mul (Nat.le_of_lt hcount) hsize
  rw [fits, if_pos (by rw [sizeLimit]; omega), add_eq (by rw [sizeLimit]; omega), pure_bind,
    List.size_toArray]

theorem readStringTable_eq (scriptCount : Nat) {position : Nat} (h : position ≤ bytes.length) :
    readStringTable bytes.toArray scriptCount position =
      done (Image.readStringTable bytes scriptCount (Word.split (bytes.drop position))) := by
  have hmissing : Word.split (bytes.drop position) = [] ↔ bytes.length < position + 4 := by
    rw [← List.length_eq_zero_iff, Image.length_split_drop]
    omega
  rw [readStringTable, add_position hsmall (by omega), pure_bind, Image.readStringTable,
    List.size_toArray]
  simp only [hmissing, pure_bind]
  by_cases hnone : scriptCount = 0 ∧ bytes.length < position + 4
  · rw [if_pos hnone, if_pos hnone]
    rfl
  · rw [if_neg hnone, if_neg hnone]
    apply readCount_bind hsmall h
    intro count hcount hhead
    have hroom : count ≤ (Word.split (bytes.drop (position + 4))).length ↔
        position + 4 + count * cellSize ≤ bytes.length := by
      rw [Image.length_split_drop, cellSize]
      omega
    rw [fits_eq hsmall hhead hcount (by decide), pure_bind]
    by_cases hfits : position + 4 + count * cellSize ≤ bytes.length
    · rw [if_pos (decide_eq_true hfits)]
      simp only
      rw [if_pos (hroom.2 hfits)]
      exact readStrings_eq hsmall (by rw [cellSize] at hfits; omega)
    · simp only [hroom, hfits, decide_false, if_false]
      rfl

end

/-! ## Whole images -/

theorem split_code (bytes : List UInt8) :
    (Word.split bytes).toArray.map UInt32.toInt32 = Image.codeArea bytes ++
      ((Word.split bytes).drop (Image.infoOffset bytes / cellSize)).toArray.map UInt32.toInt32 := by
  rw [Image.codeArea, ← Array.map_append, List.append_toArray, List.take_append_drop]

theorem readTables_eq {bytes : List UInt8} (hsmall : bytes.length < 4294967296)
    (hlen : ¬ bytes.length < Image.headerSize) (hsigned : ¬ bytes.take 4 ≠ Image.signature)
    (hrange : Image.headerSize ≤ Image.infoOffset bytes ∧
      Image.infoOffset bytes < bytes.length) :
    readTables bytes.toArray ((Word.split bytes).toArray.map UInt32.toInt32)
      (Image.infoOffset bytes) = done (Image.parse bytes) := by
  have hlong : 8 ≤ bytes.length := Nat.not_lt.1 hlen
  have hinfo := Image.infoOffset_eq hlong
  have hcode : (Image.codeArea bytes).size = Image.infoOffset bytes / cellSize := by
    rw [Image.codeArea_eq hlong (by omega), Image.size_cellsBefore, hinfo, cellSize]
  have hsmallCode : (Image.codeArea bytes).size < 4294967296 := by
    rw [hcode, cellSize]
    omega
  rw [readTables, Image.parse, if_neg hlen, if_neg hsigned, if_pos hrange, ← hcode]
  apply readCount_bind hsmall (by omega)
  intro count hcount hrecords
  have hroom : 3 * count ≤ (Word.split (bytes.drop (Image.infoOffset bytes + 4))).length ↔
      Image.infoOffset bytes + 4 + count * 12 ≤ bytes.length := by
    rw [Image.length_split_drop]
    omega
  rw [add_position hsmall (by omega), pure_bind, fits_eq hsmall hrecords hcount (by omega),
    pure_bind]
  simp only [decide_eq_true_eq, hroom]
  by_cases hfits : Image.infoOffset bytes + 4 + count * 12 ≤ bytes.length
  · rw [if_pos hfits, if_pos hfits, readScripts_eq hsmall _ (by omega)]
    apply done_bind_eq
    intro scripts hscripts
    have hstrings : (Word.split (bytes.drop (Image.infoOffset bytes + 4))).drop (3 * count) =
        Word.split (bytes.drop (Image.infoOffset bytes + 4 + count * 12)) := by
      rw [Image.drop_split]
      congr 2
      omega
    rw [add_position hsmall (by omega), pure_bind, readStringTable_eq hsmall _ hfits, hstrings]
    apply done_bind_eq
    intro strings _
    -- the records were accepted, so every entry is a cell of the code area
    have hentries := Image.entry_lt_of_readScripts hscripts
    rw [split_code, decodeReachable_eq hsmallCode hentries, adapt_done, done_mapError_bind]
    cases MapScript.decodeReachable (Image.codeArea bytes) (scripts.map (·.entry)) with
    | error cause => rfl
    | ok program => rfl
  · rw [if_neg hfits, if_neg hfits]
    rfl

/-- Whatever the bytes are, the reader stays inside them and inside what it made of them. -/
theorem parse_never_slips (bytes : List UInt8) (hsmall : bytes.length < 4294967296) :
    parse bytes.toArray = done (Image.parse bytes) := by
  rw [parse, List.size_toArray]
  by_cases hlen : bytes.length < Image.headerSize
  · rw [if_pos hlen, Image.parse, if_pos hlen]
    rfl
  have hlong : 8 ≤ bytes.length := Nat.not_lt.1 hlen
  have hhead : (range bytes.toArray 0 4 : Checked ImageError (Array UInt8)) =
      pure (bytes.take 4).toArray := by
    rw [range_eq (by omega) (by rw [List.size_toArray]; omega), List.extract_toArray,
      List.extract_eq_take_drop]
    rfl
  have hoffset : (range bytes.toArray 4 8 : Checked ImageError (Array UInt8)) =
      pure (bytes.toArray.extract 4 8) :=
    range_eq (by omega) (by rw [List.size_toArray]; omega)
  rw [if_neg hlen, hhead, pure_bind]
  by_cases hsigned : bytes.take 4 ≠ Image.signature
  · rw [if_pos hsigned, Image.parse, if_neg hlen, if_pos hsigned]
    rfl
  have hword : (Image.wordAt bytes 4).toNat = Image.infoOffset bytes :=
    (Image.infoOffset_eq hlong).symm
  rw [if_neg hsigned, readCells_eq hsmall, pure_bind, hoffset, pure_bind,
    @word_eq _ bytes 4 (by omega), pure_bind]
  simp only [hword]
  by_cases hrange : Image.headerSize ≤ Image.infoOffset bytes ∧
      Image.infoOffset bytes < bytes.length
  · rw [if_pos hrange]
    exact readTables_eq hsmall hlen hsigned hrange
  · rw [if_neg hrange, Image.parse, if_neg hlen, if_neg hsigned, if_neg hrange]
    rfl

/-- An image whose info table is not at a cell: one script that runs an inline special. -/
def misaligned : List UInt8 :=
  Word.join [0x00534341, 41, Opcode.lSpec5Direct.code.toUInt32, 80, 1, 2, 3, 4, 5,
    Opcode.terminate.code.toUInt32] ++ 0xff :: Word.join [1, 1, 8, 0, 0]

theorem parse_never_slips_misaligned :
    misaligned.length < 4294967296 ∧ parse misaligned.toArray = done (Image.parse misaligned) :=
  ⟨by decide, parse_never_slips misaligned (by decide)⟩

end Checked

end MapScript
