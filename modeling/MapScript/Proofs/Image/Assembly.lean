import Mathlib.Algebra.Group.Nat.Defs
import MapScript.Proofs.Image.Drafts
import MapScript.Proofs.Image.Tables
import MapScript.Proofs.Text.Utf8

/-!
# Assembled images read back

An image is laid out as words of header and code, the string area and the words of
the info table.  The readers find each part where the draft put it, so that an
assembled image gives back the scripts, strings, cells and labels of the calls that
made it.
-/

namespace MapScript

/-- A script of a draft, as an image declares it. -/
def DraftScript.info (s : DraftScript) : ScriptInfo where
  number := if Image.openScriptBase ≤ s.number then s.number - Image.openScriptBase else s.number
  entry := headerCells + s.entry
  argCount := s.argCount.toInt.toNat
  isOpen := Image.openScriptBase ≤ s.number

namespace Draft

/-! ## Small numbers as words -/

theorem toInt_toInt32_ofNat {n : Nat} (h : n < 2 ^ 31) : (UInt32.ofNat n).toInt32.toInt = n :=
  Int32.toInt_ofNat_of_lt h

theorem toInt32_ofNat_nonneg {n : Nat} (h : n < 2 ^ 31) : ¬ (UInt32.ofNat n).toInt32 < 0 := by
  rw [Int32.lt_iff_toInt_lt, toInt_toInt32_ofNat h]
  exact Int.not_lt.2 (Int.natCast_nonneg n)

theorem toNat_word {n : Nat} (h : n < 2 ^ 31) : (UInt32.ofNat n).toNat = n :=
  UInt32.toNat_ofNat_of_lt' (Nat.lt_trans h (by decide))

theorem readCount_ofNat (table : ImageTable) {n : Nat} (h : n < 2 ^ 31) (rest : List UInt32) :
    Image.readCount table (UInt32.ofNat n :: rest) = .ok (n, rest) := by
  rw [Image.readCount, if_neg (toInt32_ofNat_nonneg h), toNat_word h]

theorem toNat_cellOffset {cell : Nat} (hsmall : Image.headerSize + cellSize * cell < 2 ^ 31) :
    (cellOffset cell).toInt32.toInt.toNat = cellSize * (headerCells + cell) := by
  rw [cellOffset, toInt_toInt32_ofNat hsmall, Int.toNat_natCast, Nat.mul_add]
  rfl

/-- The offset of a cell of the draft leads to that cell, behind the header. -/
theorem codeCell_cellOffset {codeEnd cell : Nat}
    (hsmall : Image.headerSize + cellSize * cell < 2 ^ 31) (hcell : headerCells + cell < codeEnd) :
    codeCell codeEnd (cellOffset cell).toInt32 = .ok (headerCells + cell) := by
  have hoffset := toNat_cellOffset hsmall
  have hquot : cellSize * (headerCells + cell) / cellSize = headerCells + cell :=
    Nat.mul_div_cancel_left _ (by decide)
  have hnonneg : ¬ (cellOffset cell).toInt32 < 0 := toInt32_ofNat_nonneg hsmall
  rw [codeCell, if_neg hnonneg]
  simp only [hoffset, hquot]
  rw [if_neg (not_not.2 (Nat.mul_mod_right _ _)), if_pos ⟨Nat.le_add_right _ _, hcell⟩]

theorem cell_of_cellOffset {codeEnd cell found : Nat}
    (hsmall : Image.headerSize + cellSize * cell < 2 ^ 31)
    (h : codeCell codeEnd (cellOffset cell).toInt32 = .ok found) : found = headerCells + cell := by
  have hoffset := (codeCell_eq_ok h).2.2.2
  rw [toNat_cellOffset hsmall] at hoffset
  exact (Nat.eq_of_mul_eq_mul_left (by decide) hoffset).symm

/-! ## The parts of an image -/

def stringStart (d : Draft) : Nat := Image.headerSize + cellSize * d.code.size

def infoStart (d : Draft) : Nat := d.stringStart + (d.stringArea d.stringStart).length

def front (d : Draft) (code : Array Int32) : List UInt32 :=
  0x534341 :: UInt32.ofNat d.infoStart :: code.toList.map Int32.toUInt32

def table (d : Draft) : List UInt32 := d.infoTable (offsets d.stringStart d.stringBytes)

/-- The image of a draft with the given code. -/
def layout (d : Draft) (code : Array Int32) : List UInt8 :=
  Word.join (d.front code) ++ d.stringArea d.stringStart ++ Word.join d.table

theorem build_eq_layout {d : Draft} {code : Array Int32} (h : d.resolve = .ok code)
    (hsize : code.size = d.code.size) : d.build = .ok (d.layout code) := by
  have hstart : Image.headerSize + (Word.join (code.toList.map Int32.toUInt32)).length =
      d.stringStart := by
    rw [Word.length_join, List.length_map, Array.length_toList, hsize]
    rfl
  have hfront : Word.join (d.front code) = Image.signature ++
      Word.toBytes (UInt32.ofNat d.infoStart) ++ Word.join (code.toList.map Int32.toUInt32) := rfl
  rw [build, h]
  simp only [Bind.bind, Except.bind, hstart]
  rw [layout, hfront]
  rfl

section

variable {d : Draft} {code : Array Int32}

theorem length_front (hsize : code.size = d.code.size) :
    (Word.join (d.front code)).length = d.stringStart := by
  simp only [front, Word.length_join, List.length_cons, List.length_map, Array.length_toList,
    hsize, stringStart, Image.headerSize, headerCells, cellSize]
  omega

theorem length_layout (hsize : code.size = d.code.size) :
    (d.layout code).length = d.infoStart + 4 * d.table.length := by
  rw [layout, List.length_append, List.length_append, length_front hsize, Word.length_join,
    infoStart]

theorem split_layout (d : Draft) (code : Array Int32) : Word.split (d.layout code) =
    d.front code ++ Word.split (d.stringArea d.stringStart ++ Word.join d.table) := by
  rw [layout, List.append_assoc, Word.split_join_append]

theorem infoOffset_layout (hsmall : d.infoStart < 2 ^ 31) :
    Image.infoOffset (d.layout code) = d.infoStart := by
  rw [Image.infoOffset, split_layout]
  exact toNat_word hsmall

theorem drop_layout (hsize : code.size = d.code.size) :
    (d.layout code).drop d.infoStart = Word.join d.table := by
  rw [layout]
  apply List.drop_left'
  rw [List.length_append, length_front hsize]
  rfl

theorem size_codeArea (hsize : code.size = d.code.size) (hsmall : d.infoStart < 2 ^ 31) :
    (Image.codeArea (d.layout code)).size = d.infoStart / 4 := by
  rw [Image.codeArea, infoOffset_layout hsmall, Array.size_map, List.size_toArray,
    List.length_take, Word.length_split, length_layout hsize]
  simp only [cellSize]
  omega

theorem size_le_infoStart (d : Draft) : headerCells + d.code.size ≤ d.infoStart / 4 := by
  simp only [infoStart, stringStart, Image.headerSize, cellSize]
  omega

theorem getElem?_codeArea (hsize : code.size = d.code.size) (hsmall : d.infoStart < 2 ^ 31)
    {k : Nat} (hk : k < d.code.size) :
    (Image.codeArea (d.layout code))[headerCells + k]? = code[k]? := by
  have hfits := size_le_infoStart d
  have hfront : headerCells + k < (d.front code).length := by
    simp only [front, List.length_cons, List.length_map, Array.length_toList, hsize, headerCells]
    omega
  have hcell : (d.front code)[headerCells + k]? = code[k]?.map Int32.toUInt32 := by
    rw [front, headerCells, Nat.add_comm, List.getElem?_cons_succ, List.getElem?_cons_succ,
      List.getElem?_map, Array.getElem?_toList]
  rw [Image.codeArea, infoOffset_layout hsmall, cellSize, Array.getElem?_map,
    List.getElem?_toArray, List.getElem?_take_of_lt (by omega), split_layout,
    List.getElem?_append_left hfront, hcell, Option.map_map]
  cases code[k]? <;> rfl

end

/-! ## The script table -/

def recordWords (s : DraftScript) : List UInt32 :=
  [s.number.toUInt32, cellOffset s.entry, s.argCount.toUInt32]

def record (s : DraftScript) : Int32 × Int32 × Int32 :=
  (s.number, (cellOffset s.entry).toInt32, s.argCount)

def stringTable (d : Draft) : List UInt32 :=
  UInt32.ofNat (offsets d.stringStart d.stringBytes).length ::
    (offsets d.stringStart d.stringBytes).map UInt32.ofNat

theorem table_eq (d : Draft) : d.table = UInt32.ofNat d.scripts.size ::
    (d.scripts.toList.flatMap recordWords ++ d.stringTable) := rfl

theorem length_records (scripts : List DraftScript) :
    (scripts.flatMap recordWords).length = 3 * scripts.length := by
  induction scripts with
  | nil => rfl
  | cons s scripts ih =>
      rw [List.flatMap_cons, List.length_append, ih, List.length_cons]
      simp only [recordWords, List.length_cons, List.length_nil]
      omega

theorem records_flatMap (scripts : List DraftScript) :
    Image.records (scripts.flatMap recordWords) = scripts.map record := by
  induction scripts with
  | nil => rfl
  | cons s scripts ih =>
      rw [List.flatMap_cons, List.map_cons, ← ih]
      rfl

/-- The script records are accepted and give the declared scripts. -/
theorem readScripts_records {scripts : List DraftScript} {codeEnd : Nat}
    (hentries : ∀ s ∈ scripts, headerCells + s.entry < codeEnd ∧
      Image.headerSize + cellSize * s.entry < 2 ^ 31)
    (hargs : ∀ s ∈ scripts, 0 ≤ s.argCount ∧ s.argCount.toInt.toNat ≤ Image.maxArgCount)
    (hnumbers : scripts.Pairwise fun a b => a.info.number ≠ b.info.number) :
    Image.readScripts codeEnd 0 [] (scripts.map record) = .ok (scripts.map DraftScript.info) := by
  rw [Image.readScripts_eq_ok_iff]
  refine ⟨?_, by simp, List.pairwise_map.2 hnumbers⟩
  rw [List.forall₂_map_left_iff, List.forall₂_map_right_iff, List.forall₂_same]
  intro s hs
  exact ⟨codeCell_cellOffset (hentries s hs).2 (hentries s hs).1, (hargs s hs).1, (hargs s hs).2,
    rfl, rfl, rfl⟩

/-! ## The string table -/

theorem length_offsets (start : Nat) (pieces : List (List UInt8)) :
    (offsets start pieces).length = pieces.length := by
  induction pieces generalizing start with
  | nil => rfl
  | cons piece pieces ih => rw [offsets, List.length_cons, ih, List.length_cons]

theorem length_stringOffsets (d : Draft) :
    (offsets d.stringStart d.stringBytes).length = d.strings.size := by
  rw [length_offsets, stringBytes, List.length_map, Array.length_toList]

theorem length_table (d : Draft) :
    d.table.length = 2 + 3 * d.scripts.size + d.strings.size := by
  rw [table_eq, List.length_cons, List.length_append, length_records, Array.length_toList,
    stringTable, List.length_cons, List.length_map, length_stringOffsets]
  omega

theorem textAt_encode {text : String} (htext : '\x00' ∉ text.toList) (before after : List UInt8) :
    Image.textAt (before ++ (Text.Utf8.encode text ++ 0 :: after)) before.length = text := by
  have hbytes : ∀ b ∈ Text.Utf8.encode text, decide (b ≠ 0) = true :=
    fun b hb => decide_eq_true (Text.Utf8.encode_ne_zero htext b hb)
  rw [Image.textAt, List.drop_left, List.takeWhile_append_of_pos hbytes,
    List.takeWhile_cons_of_neg (by decide), List.append_nil, Text.Utf8.decodeLossy_encode]

/-- The strings are found one behind the other, whatever stands around them. -/
theorem readStrings_offsets {texts : List String} (htexts : ∀ text ∈ texts, '\x00' ∉ text.toList)
    {bytes : List UInt8} (hlen : bytes.length < 2 ^ 31) (before after : List UInt8) (index : Nat)
    (hbytes : bytes = before ++
      ((texts.map fun text => Text.Utf8.encode text ++ [0]).flatten ++ after)) :
    Image.readStrings bytes index
      ((offsets before.length (texts.map fun text => Text.Utf8.encode text ++ [0])).map
        UInt32.ofNat) = .ok texts := by
  induction texts generalizing before index with
  | nil => rfl
  | cons text texts ih =>
      rw [List.forall_mem_cons] at htexts
      rw [List.map_cons, List.flatten_cons] at hbytes
      have hhere : before.length < bytes.length := by
        rw [hbytes]
        simp only [List.length_append, List.length_cons]
        omega
      have htext : Image.textAt bytes before.length = text := by
        rw [hbytes, List.append_assoc, List.append_assoc]
        exact textAt_encode htexts.1 before _
      have hrest := ih htexts.2 (before ++ (Text.Utf8.encode text ++ [0])) (index + 1)
        (by rw [hbytes]; simp only [List.append_assoc])
      rw [List.map_cons, offsets, List.map_cons, Image.readStrings,
        toNat_word (Nat.lt_trans hhere hlen), if_pos hhere, htext]
      rw [List.length_append] at hrest
      rw [hrest]
      rfl

section

variable {d : Draft} {code : Array Int32}

theorem strings_lt_of_length (hsize : code.size = d.code.size)
    (hlen : (d.layout code).length < 2 ^ 31) : d.strings.size < 2 ^ 31 := by
  have hlayout := length_layout hsize
  have htable := length_table d
  omega

theorem readStringTable_stringTable (htexts : ∀ text ∈ d.strings, '\x00' ∉ text.toList)
    (hsize : code.size = d.code.size) (hlen : (d.layout code).length < 2 ^ 31)
    (scriptCount : Nat) :
    Image.readStringTable (d.layout code) scriptCount d.stringTable = .ok d.strings.toList := by
  have hcount := length_stringOffsets d
  have hstrings := readStrings_offsets
    (fun text htext => htexts text (Array.mem_toList_iff.1 htext)) hlen (Word.join (d.front code))
    (padding (d.stringStart + d.stringBytes.flatten.length) ++ Word.join d.table) 0
    (by rw [layout, stringArea, stringBytes]; simp only [List.append_assoc])
  rw [length_front hsize] at hstrings
  have hoffsets : ((offsets d.stringStart d.stringBytes).map UInt32.ofNat).length =
      d.strings.size := by
    rw [List.length_map, hcount]
  rw [Image.readStringTable, if_neg (fun h => by cases h.2), stringTable, hcount,
    readCount_ofNat .string (strings_lt_of_length hsize hlen)]
  simp only [Bind.bind, Except.bind]
  rw [if_pos (Nat.le_of_eq hoffsets.symm), List.take_of_length_le (Nat.le_of_eq hoffsets)]
  exact hstrings

end

/-! ## The whole image -/

/-- What a draft must satisfy for its image to be read: every label that is used is
bound, no text holds a zero character, every script starts at a cell of the code,
takes a number of arguments there is room for, and has a number of its own. -/
structure Readable (d : Draft) : Prop where
  bound : ∀ use ∈ d.fixups, (d.target? use.2).isSome = true
  texts : ∀ text ∈ d.strings, '\x00' ∉ text.toList
  entries : ∀ s ∈ d.scripts, s.entry < d.code.size
  args : ∀ s ∈ d.scripts, 0 ≤ s.argCount ∧ s.argCount.toInt.toNat ≤ Image.maxArgCount
  numbers : d.scripts.toList.Pairwise fun a b => a.info.number ≠ b.info.number

/-- The cells at which the scripts of the draft start in its image. -/
def entries (d : Draft) : List Nat := d.scripts.toList.map fun s => headerCells + s.entry

section

variable {d : Draft} {code : Array Int32}

theorem entries_lt (h : d.Readable) (hsize : code.size = d.code.size)
    (hsmall : d.infoStart < 2 ^ 31) :
    ∀ pc ∈ d.entries, pc < (Image.codeArea (d.layout code)).size := by
  intro pc hpc
  obtain ⟨s, hs, rfl⟩ := List.mem_map.1 hpc
  have hentry := h.entries s (Array.mem_toList_iff.1 hs)
  have hfits := size_le_infoStart d
  rw [size_codeArea hsize hsmall]
  omega

theorem headerSize_le_infoStart (d : Draft) : Image.headerSize ≤ d.infoStart := by
  rw [infoStart, stringStart]
  omega

theorem take_layout (d : Draft) (code : Array Int32) :
    (d.layout code).take 4 = Image.signature := rfl

theorem readCount_layout (hsize : code.size = d.code.size)
    (hlen : (d.layout code).length < 2 ^ 31) :
    Image.readCount .script
      (Word.split ((d.layout code).drop (Image.infoOffset (d.layout code)))) =
      .ok (d.scripts.size, d.scripts.toList.flatMap recordWords ++ d.stringTable) := by
  have hlayout := length_layout hsize
  have htable := length_table d
  rw [infoOffset_layout (by omega), drop_layout hsize, Word.split_join, table_eq,
    readCount_ofNat .script (by omega)]

theorem readScripts_layout (h : d.Readable) (hsize : code.size = d.code.size)
    (hsmall : d.infoStart < 2 ^ 31) :
    Image.readScripts (Image.codeArea (d.layout code)).size 0 []
      (Image.records (d.scripts.toList.flatMap recordWords)) =
      .ok (d.scripts.toList.map DraftScript.info) := by
  have hfits := size_le_infoStart d
  have hcells : Image.headerSize + cellSize * d.code.size ≤ d.infoStart := Nat.le_add_right _ _
  simp only [cellSize] at hcells
  rw [records_flatMap, size_codeArea hsize hsmall]
  refine readScripts_records ?_ (fun s hs => h.args s (Array.mem_toList_iff.1 hs)) h.numbers
  intro s hs
  have hentry := h.entries s (Array.mem_toList_iff.1 hs)
  simp only [cellSize]
  omega

/-- An assembled image is read exactly when its code is, and then as the draft
declares it. -/
theorem parse_layout_iff (h : d.Readable) (hsize : code.size = d.code.size)
    (hlen : (d.layout code).length < 2 ^ 31) {image : Image} :
    Image.parse (d.layout code) = .ok image ↔
      image.scripts = d.scripts.toList.map DraftScript.info ∧ image.strings = d.strings ∧
      decodeReachable (Image.codeArea (d.layout code)) d.entries = .ok image.program ∧
      image.byteSize = (d.layout code).length := by
  have hlayout := length_layout hsize
  have hsmall : d.infoStart < 2 ^ 31 := by omega
  have hheader := headerSize_le_infoStart d
  have hcount := readCount_layout hsize hlen
  have hrecords : (d.scripts.toList.flatMap recordWords).length = 3 * d.scripts.size := by
    rw [length_records, Array.length_toList]
  have hscripts := readScripts_layout h hsize hsmall
  have hstrings := readStringTable_stringTable h.texts hsize hlen d.scripts.size
  have hentries : (d.scripts.toList.map DraftScript.info).map (·.entry) = d.entries := by
    rw [List.map_map]
    rfl
  rw [Image.parse_eq_ok_iff (by omega)]
  constructor
  · rintro ⟨count, table, strings, hholds⟩
    have hsame := hholds.count
    rw [hcount] at hsame
    cases hsame
    have hinfos := hholds.scripts
    rw [List.take_left' hrecords, hscripts, Except.ok.injEq] at hinfos
    have htexts := hholds.stringTable
    rw [List.drop_left' hrecords, hstrings, Except.ok.injEq] at htexts
    have hprogram := hholds.program
    rw [← hinfos, hentries] at hprogram
    refine ⟨hinfos.symm, ?_, hprogram, hholds.byteSize⟩
    rw [hholds.strings, ← htexts]
  · rintro ⟨hinfos, htexts, hprogram, hbytes⟩
    refine ⟨_, _, d.strings.toList, take_layout d code, ?_, ?_, hcount, ?_, ?_, ?_, htexts, ?_,
      hbytes⟩
    · rw [infoOffset_layout hsmall]
      exact hheader
    · rw [infoOffset_layout hsmall, hlayout, length_table]
      omega
    · rw [List.length_append, hrecords]
      omega
    · rw [List.take_left' hrecords, hinfos]
      exact hscripts
    · rw [List.drop_left' hrecords]
      exact hstrings
    · rw [hinfos, hentries]
      exact hprogram

end

/-- What calls must satisfy for their image to be read: every label that is used is
made and bound, no text holds a zero character, every script is declared before a cell,
takes a number of arguments there is room for, and has a number of its own. -/
structure Proper (calls : List Call) : Prop where
  bound : ∀ label, .place label ∈ emitted calls → Bound calls label
  texts : ∀ text ∈ interned calls, '\x00' ∉ text.toList
  entries : ∀ s ∈ declared calls, s.entry < (emitted calls).length
  args : ∀ s ∈ declared calls, 0 ≤ s.argCount ∧ s.argCount.toInt.toNat ≤ Image.maxArgCount
  numbers : (declared calls).Pairwise fun a b => a.info.number ≠ b.info.number

/-- The cells at which the declared scripts start in the image. -/
def starts (calls : List Call) : List Nat := (declared calls).map fun s => headerCells + s.entry

/-- The image gives back what the calls put into it. -/
structure ReadsBack (calls : List Call) (bytes : List UInt8) (image : Image) : Prop where
  /-- The declared scripts in their order, each behind the header and the cells emitted
  before it. -/
  scripts : image.scripts = (declared calls).map DraftScript.info
  strings : image.strings = (interned calls).toArray
  /-- A string is found at the index that was given for it. -/
  string : ∀ before text rest, calls = before ++ .string text :: rest →
    image.string? (Int32.ofNat ((of before).string text).1) = some text
  /-- A cell that holds no label is behind the header as it was emitted. -/
  cells : ∀ k value, (emitted calls)[k]? = some (.plain value) →
    (Image.codeArea bytes)[headerCells + k]? = some value
  /-- A branch whose last operand holds a label leads behind the header and the cells
  emitted before the label was bound last. -/
  targets : ∀ pc d cell k label, image.program.fetch pc = some d →
    d.instruction.branchTarget? = some cell → d.next = headerCells + k + 1 →
    (emitted calls)[k]? = some (.place label) →
    ∃ before rest, calls = before ++ .bind label :: rest ∧ .bind label ∉ rest ∧
      cell = headerCells + (emitted before).length

/-- Proper calls make a draft whose image can be read. -/
theorem Proper.readable {calls : List Call} (h : Proper calls) : (of calls).Readable where
  bound := by
    intro use huse
    apply isSome_target?_of
    exact h.bound use.2 (List.mem_of_getElem? (mem_fixups_of.1 huse))
  texts := by simpa only [← Array.mem_toList_iff, strings_of] using h.texts
  entries := by simpa only [← Array.mem_toList_iff, scripts_of, size_code_of] using h.entries
  args := by simpa only [← Array.mem_toList_iff, scripts_of] using h.args
  numbers := by simpa only [scripts_of] using h.numbers

theorem entries_of (calls : List Call) : (of calls).entries = starts calls := by
  rw [entries, scripts_of, starts]

theorem string?_ofNat {image : Image} {i : Nat} (h : i < 2 ^ 31) :
    image.string? (Int32.ofNat i) = image.strings[i]? := by
  have hi : (Int32.ofNat i).toInt = i := Int32.toInt_ofNat_of_lt h
  have hnonneg : ¬ Int32.ofNat i < 0 := by
    rw [Int32.lt_iff_toInt_lt, hi]
    exact Int.not_lt.2 (Int.natCast_nonneg i)
  rw [Image.string?, if_neg hnonneg, hi, Int.toNat_natCast]

/-- A branch whose operand was left open for a label leads to the cell of the label. -/
theorem target_of_fixup {d : Draft} {code : Array Int32} {pc cell k label target : Nat}
    {e : Decoded} (htidy : d.Tidy) (hcode : d.Resolves code) (hsmall : d.infoStart < 2 ^ 31)
    (hdecodes : Decodes (Image.codeArea (d.layout code)) pc e)
    (htarget : e.instruction.branchTarget? = some cell) (hnext : e.next = headerCells + k + 1)
    (huse : (k, label) ∈ d.fixups) (hbound : d.target? label = some target)
    (hle : target ≤ d.code.size) : cell = headerCells + target := by
  obtain ⟨inside, hcell⟩ := hdecodes.target htarget
  have hlast : e.next - 1 = headerCells + k := by omega
  simp only [hlast] at hcell inside
  have hfilled := hcode.filled k label target huse hbound
  rw [← getElem?_codeArea hcode.size hsmall (htidy.inside _ huse),
    Array.getElem?_eq_getElem inside, Option.some.injEq] at hfilled
  rw [hfilled] at hcell
  have hcells : Image.headerSize + cellSize * target ≤ d.infoStart :=
    calc Image.headerSize + cellSize * target
        ≤ Image.headerSize + cellSize * d.code.size :=
          Nat.add_le_add_left (Nat.mul_le_mul_left _ hle) _
      _ ≤ d.infoStart := Nat.le_add_right _ _
  exact cell_of_cellOffset (Nat.lt_of_le_of_lt hcells hsmall) hcell

theorem readsBack_of_parse {calls : List Call} {code : Array Int32} {image : Image}
    (h : Proper calls) (hcode : (of calls).Resolves code)
    (hlen : ((of calls).layout code).length < 2 ^ 31)
    (hparse : Image.parse ((of calls).layout code) = .ok image) :
    ReadsBack calls ((of calls).layout code) image := by
  obtain ⟨hscripts, hstrings, hprogram, _⟩ :=
    (parse_layout_iff h.readable hcode.size hlen).1 hparse
  have hlayout := length_layout hcode.size
  have hsmall : (of calls).infoStart < 2 ^ 31 := by omega
  have htexts : image.strings = (interned calls).toArray := by
    rw [hstrings, ← strings_of, Array.toArray_toList]
  refine ⟨?_, htexts, ?_, ?_, ?_⟩
  · rw [hscripts, scripts_of]
  · rintro before text rest rfl
    have htext := getElem?_interned before rest text
    obtain ⟨hindex, _⟩ := List.getElem?_eq_some_iff.1 htext
    rw [← strings_of, Array.length_toList] at hindex
    have hcount := strings_lt_of_length hcode.size hlen
    rw [string?_ofNat (Nat.lt_trans hindex hcount), htexts, List.getElem?_toArray, htext]
  · intro k value hvalue
    have hk : k < (of calls).code.size := by
      rw [size_code_of]
      exact (List.getElem?_eq_some_iff.1 hvalue).1
    have hfree : ∀ use ∈ (of calls).fixups, use.1 ≠ k := by
      rintro use huse rfl
      rw [mem_fixups_of, hvalue] at huse
      cases huse
    rw [getElem?_codeArea hcode.size hsmall hk, hcode.kept k hfree, ← Array.getElem?_toList,
      code_of, List.getElem?_map, hvalue]
    rfl
  · intro pc d cell k label hfetch htarget hnext huse
    have hdecodes :=
      ((fetch_decodeReachable (entries_lt h.readable hcode.size hsmall) hprogram pc d).1 hfetch).2
    have huse : (k, label) ∈ (of calls).fixups := mem_fixups_of.2 huse
    obtain ⟨bound, hbound⟩ := Option.isSome_iff_exists.1 (h.readable.bound _ huse)
    obtain ⟨before, rest, hcalls, hlast, rfl⟩ := target?_of hbound
    refine ⟨before, rest, hcalls, hlast, ?_⟩
    have hgrown : (emitted before).length ≤ (of calls).code.size := by
      rw [size_code_of, hcalls, emitted_append, List.length_append]
      exact Nat.le_add_right _ _
    exact target_of_fixup (tidy_of calls) hcode hsmall hdecodes htarget hnext huse hbound hgrown

/-- Assembling and reading are inverse to each other.  Proper calls make an image, and
the labels they name are numbered as they were made.  If the image is small enough for
its offsets, it is read exactly when the code that the declared scripts reach decodes,
and then it gives back what the calls put into it. -/
theorem parse_build (calls : List Call) (h : Proper calls) :
    (∀ before rest, calls = before ++ .label :: rest →
      (of before).label.1 = before.count .label) ∧
    ∃ bytes, (of calls).build = .ok bytes ∧ (bytes.length < 2 ^ 31 →
      ((∃ image, Image.parse bytes = .ok image) ↔
        ∃ program, decodeReachable (Image.codeArea bytes) (starts calls) = .ok program) ∧
      ∀ image, Image.parse bytes = .ok image → ReadsBack calls bytes image) := by
  refine ⟨fun before _ _ => labels_of before, ?_⟩
  obtain ⟨code, hresolve, hcode⟩ := resolve_of_tidy (tidy_of calls) h.readable.bound
  refine ⟨_, build_eq_layout hresolve hcode.size, fun hlen => ⟨?_, ?_⟩⟩
  · rw [← entries_of]
    constructor
    · rintro ⟨image, hparse⟩
      exact ⟨image.program, ((parse_layout_iff h.readable hcode.size hlen).1 hparse).2.2.1⟩
    · rintro ⟨program, hprogram⟩
      exact ⟨⟨_, _, program, _⟩,
        (parse_layout_iff h.readable hcode.size hlen).2 ⟨rfl, rfl, hprogram, rfl⟩⟩
  · exact fun image hparse => readsBack_of_parse h hcode hlen hparse

/-- An open script whose label is bound a second time, behind its branches. -/
def rebound : List Call :=
  [.label, .script 1001 2, .bind 0, .op .pushNumber [7], .caseBranch 7 0, .string "é",
    .branch .goto 0, .bind 0, .op .terminate []]

theorem proper_rebound : Proper rebound := by
  refine ⟨?_, by decide +kernel, by decide +kernel, by decide +kernel, by decide +kernel⟩
  intro label hlabel
  have hzero : label = 0 := by
    simpa [emitted, rebound, Call.cells] using hlabel
  subst hzero
  exact ⟨[.label, .script 1001 2], _, rfl, by decide⟩

theorem parse_build_rebound : Proper rebound ∧ ∃ bytes image,
    (of rebound).build = .ok bytes ∧ Image.parse bytes = .ok image ∧
      ReadsBack rebound bytes image := by
  have hsize : (of rebound).build.toOption.map List.length = some 68 := by decide +kernel
  have hcode : (of rebound).build.toOption.map
      (fun bytes => (Image.parse bytes).toOption.isSome) = some true := by decide +kernel
  obtain ⟨_, bytes, hbuild, hread⟩ := parse_build rebound proper_rebound
  rw [hbuild] at hsize hcode
  have hlen : bytes.length < 2 ^ 31 := by
    rw [Option.some.inj hsize]
    decide
  have hparse : ∃ image, Image.parse bytes = .ok image := by
    cases hparse : Image.parse bytes with
    | ok image => exact ⟨image, rfl⟩
    | error cause =>
        simp only [Except.toOption, Option.map_some, hparse] at hcode
        cases hcode
  obtain ⟨image, hparse⟩ := hparse
  exact ⟨proper_rebound, bytes, image, hbuild, hparse, (hread hlen).2 image hparse⟩

end Draft

end MapScript
