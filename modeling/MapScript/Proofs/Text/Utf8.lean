import MapScript.Text.Utf8

/-!
# UTF-8 reads back

The forgiving decoder gives back every text from its own encoding, and the zero
byte stands for the zero character only.
-/

namespace MapScript.Text.Utf8

/-! ## First bytes and continuation bytes, by their numbers -/

theorem begin_ascii {b : UInt8} (h : b.toNat < 0x80) : begin b = ([Char.ofNat b.toNat], none) := by
  unfold begin
  rw [if_pos (UInt8.lt_iff_toNat_lt.2 h)]

theorem begin_lead {b : UInt8} {p : Partial} (h : 0x80 ≤ b.toNat) (hp : announce b = some p) :
    begin b = ([], some p) := by
  have hlead : ¬ b < 0x80 := by
    rw [UInt8.lt_iff_toNat_lt]
    exact Nat.not_lt.2 h
  unfold begin
  rw [if_neg hlead, hp]

/-- The announcement of a first byte, compared as numbers. -/
theorem announce_eq (b : UInt8) : announce b =
    if 0xC2 ≤ b.toNat ∧ b.toNat ≤ 0xDF then some ⟨b.toNat % 32, 0x80, 0xBF, 0⟩
    else if b.toNat = 0xE0 then some ⟨0, 0xA0, 0xBF, 1⟩
    else if b.toNat = 0xED then some ⟨13, 0x80, 0x9F, 1⟩
    else if 0xE1 ≤ b.toNat ∧ b.toNat ≤ 0xEF then some ⟨b.toNat % 16, 0x80, 0xBF, 1⟩
    else if b.toNat = 0xF0 then some ⟨0, 0x90, 0xBF, 2⟩
    else if 0xF1 ≤ b.toNat ∧ b.toNat ≤ 0xF3 then some ⟨b.toNat % 8, 0x80, 0xBF, 2⟩
    else if b.toNat = 0xF4 then some ⟨4, 0x80, 0x8F, 2⟩
    else none := by
  simp only [announce, UInt8.le_iff_toNat_le, ← UInt8.toNat_inj]
  rfl

theorem extend_last {p : Partial} {b : UInt8} (hlow : p.low.toNat ≤ b.toNat)
    (hhigh : b.toNat ≤ p.high.toNat) (howed : p.owed = 0) :
    extend p b = ([Char.ofNat (p.value * 64 + b.toNat % 64)], none) := by
  unfold extend
  rw [if_pos ⟨UInt8.le_iff_toNat_le.2 hlow, UInt8.le_iff_toNat_le.2 hhigh⟩, howed]

theorem extend_more {p : Partial} {b : UInt8} {owed : Nat} (hlow : p.low.toNat ≤ b.toNat)
    (hhigh : b.toNat ≤ p.high.toNat) (howed : p.owed = owed + 1) :
    extend p b = ([], some ⟨p.value * 64 + b.toNat % 64, 0x80, 0xBF, owed⟩) := by
  unfold extend
  rw [if_pos ⟨UInt8.le_iff_toNat_le.2 hlow, UInt8.le_iff_toNat_le.2 hhigh⟩, howed]

/-! ## Decoding along a character -/

theorem decodeFrom_begin (b : UInt8) (bs : List UInt8) :
    decodeFrom none (b :: bs) = (begin b).1 ++ decodeFrom (begin b).2 bs := rfl

theorem decodeFrom_extend (p : Partial) (b : UInt8) (bs : List UInt8) :
    decodeFrom (some p) (b :: bs) = (extend p b).1 ++ decodeFrom (extend p b).2 bs := rfl

/-- The last byte of a character. -/
theorem decodeFrom_last {value n : Nat} (hn : n < 64) (bs : List UInt8) :
    decodeFrom (some ⟨value, 0x80, 0xBF, 0⟩) (UInt8.ofNat (n + 0x80) :: bs) =
      Char.ofNat (value * 64 + n) :: decodeFrom none bs := by
  have hb := UInt8.toNat_ofNat_of_lt' (show n + 0x80 < 256 by omega)
  have hlow : (0x80 : UInt8).toNat ≤ (UInt8.ofNat (n + 0x80)).toNat := by
    rw [hb]
    exact Nat.le_add_left _ _
  have hhigh : (UInt8.ofNat (n + 0x80)).toNat ≤ (0xBF : UInt8).toNat := by
    rw [hb]
    change _ ≤ 0xBF
    omega
  have hmod : (n + 0x80) % 64 = n := by omega
  rw [decodeFrom_extend, extend_last hlow hhigh rfl, hb, hmod]
  rfl

/-- A continuation byte after which more are owed, in the range that the bytes
before it allow. -/
theorem decodeFrom_more {value n owed : Nat} {low high : UInt8} (hlow : low.toNat ≤ n + 0x80)
    (hhigh : n + 0x80 ≤ high.toNat) (hn : n < 64) (bs : List UInt8) :
    decodeFrom (some ⟨value, low, high, owed + 1⟩) (UInt8.ofNat (n + 0x80) :: bs) =
      decodeFrom (some ⟨value * 64 + n, 0x80, 0xBF, owed⟩) bs := by
  have hb := UInt8.toNat_ofNat_of_lt' (show n + 0x80 < 256 by omega)
  have hmod : (n + 0x80) % 64 = n := by omega
  rw [decodeFrom_extend, extend_more (by rw [hb]; exact hlow) (by rw [hb]; exact hhigh) rfl, hb,
    hmod]
  rfl

theorem decodeFrom_lead {b : UInt8} {p : Partial} (h : 0x80 ≤ b.toNat) (hp : announce b = some p)
    (bs : List UInt8) : decodeFrom none (b :: bs) = decodeFrom (some p) bs := by
  rw [decodeFrom_begin, begin_lead h hp]
  rfl

/-! ## Whole characters -/

theorem decode_two {v : Nat} (hlow : 0x80 ≤ v) (hhigh : v ≤ 0x7ff) (rest : List UInt8) :
    decodeFrom none (UInt8.ofNat (v / 64 % 0x20 + 0xc0) :: UInt8.ofNat (v % 0x40 + 0x80) :: rest) =
      Char.ofNat v :: decodeFrom none rest := by
  have hb := UInt8.toNat_ofNat_of_lt' (show v / 64 % 0x20 + 0xc0 < 256 by omega)
  have hlead : announce (UInt8.ofNat (v / 64 % 0x20 + 0xc0)) = some ⟨v / 64, 0x80, 0xBF, 0⟩ := by
    rw [announce_eq, hb, if_pos (by omega)]
    congr 2
    omega
  rw [decodeFrom_lead (by rw [hb]; omega) hlead, decodeFrom_last (by omega)]
  congr 2
  omega

/-- A first byte of three leaves the second in a range that keeps out what two bytes
could say and the surrogates. -/
theorem announce_three {v : Nat} (hlow : 0x800 ≤ v) (hhigh : v ≤ 0xffff)
    (hvalid : v < 0xD800 ∨ 0xDFFF < v) : ∃ low high : UInt8,
    announce (UInt8.ofNat (v / 4096 % 0x10 + 0xe0)) = some ⟨v / 4096, low, high, 1⟩ ∧
    low.toNat ≤ v / 64 % 0x40 + 0x80 ∧ v / 64 % 0x40 + 0x80 ≤ high.toNat := by
  have hb := UInt8.toNat_ofNat_of_lt' (show v / 4096 % 0x10 + 0xe0 < 256 by omega)
  rw [announce_eq, hb, if_neg (by omega)]
  by_cases hzero : v / 4096 = 0
  · refine ⟨0xA0, 0xBF, ?_, ?_, ?_⟩
    · rw [if_pos (by omega), hzero]
    · change 0xA0 ≤ _
      omega
    · change _ ≤ 0xBF
      omega
  · rw [if_neg (by omega)]
    by_cases hsurrogate : v / 4096 = 13
    · refine ⟨0x80, 0x9F, ?_, ?_, ?_⟩
      · rw [if_pos (by omega), hsurrogate]
      · exact Nat.le_add_left _ _
      · change _ ≤ 0x9F
        omega
    · refine ⟨0x80, 0xBF, ?_, ?_, ?_⟩
      · rw [if_neg (by omega), if_pos (by omega)]
        congr 2
        omega
      · exact Nat.le_add_left _ _
      · change _ ≤ 0xBF
        omega

theorem decode_three {v : Nat} (hlow : 0x800 ≤ v) (hhigh : v ≤ 0xffff)
    (hvalid : v < 0xD800 ∨ 0xDFFF < v) (rest : List UInt8) :
    decodeFrom none (UInt8.ofNat (v / 4096 % 0x10 + 0xe0) ::
        UInt8.ofNat (v / 64 % 0x40 + 0x80) :: UInt8.ofNat (v % 0x40 + 0x80) :: rest) =
      Char.ofNat v :: decodeFrom none rest := by
  have hb := UInt8.toNat_ofNat_of_lt' (show v / 4096 % 0x10 + 0xe0 < 256 by omega)
  obtain ⟨low, high, hlead, hlow', hhigh'⟩ := announce_three hlow hhigh hvalid
  rw [decodeFrom_lead (by rw [hb]; omega) hlead, decodeFrom_more hlow' hhigh' (by omega),
    decodeFrom_last (by omega)]
  congr 2
  omega

/-- A first byte of four leaves the second in a range that keeps out what three bytes
could say and what is no character. -/
theorem announce_four {v : Nat} (hlow : 0x10000 ≤ v) (hhigh : v < 0x110000) : ∃ low high : UInt8,
    announce (UInt8.ofNat (v / 262144 % 0x08 + 0xf0)) = some ⟨v / 262144, low, high, 2⟩ ∧
    low.toNat ≤ v / 4096 % 0x40 + 0x80 ∧ v / 4096 % 0x40 + 0x80 ≤ high.toNat := by
  have hb := UInt8.toNat_ofNat_of_lt' (show v / 262144 % 0x08 + 0xf0 < 256 by omega)
  rw [announce_eq, hb, if_neg (by omega), if_neg (by omega), if_neg (by omega),
    if_neg (by omega)]
  by_cases hzero : v / 262144 = 0
  · refine ⟨0x90, 0xBF, ?_, ?_, ?_⟩
    · rw [if_pos (by omega), hzero]
    · change 0x90 ≤ _
      omega
    · change _ ≤ 0xBF
      omega
  · rw [if_neg (by omega)]
    by_cases hlast : v / 262144 = 4
    · refine ⟨0x80, 0x8F, ?_, ?_, ?_⟩
      · rw [if_neg (by omega), if_pos (by omega), hlast]
      · exact Nat.le_add_left _ _
      · change _ ≤ 0x8F
        omega
    · refine ⟨0x80, 0xBF, ?_, ?_, ?_⟩
      · rw [if_pos (by omega)]
        congr 2
        omega
      · exact Nat.le_add_left _ _
      · change _ ≤ 0xBF
        omega

theorem decode_four {v : Nat} (hlow : 0x10000 ≤ v) (hhigh : v < 0x110000) (rest : List UInt8) :
    decodeFrom none (UInt8.ofNat (v / 262144 % 0x08 + 0xf0) ::
        UInt8.ofNat (v / 4096 % 0x40 + 0x80) :: UInt8.ofNat (v / 64 % 0x40 + 0x80) ::
        UInt8.ofNat (v % 0x40 + 0x80) :: rest) =
      Char.ofNat v :: decodeFrom none rest := by
  have hb := UInt8.toNat_ofNat_of_lt' (show v / 262144 % 0x08 + 0xf0 < 256 by omega)
  obtain ⟨low, high, hlead, hlow', hhigh'⟩ := announce_four hlow hhigh
  rw [decodeFrom_lead (by rw [hb]; omega) hlead, decodeFrom_more hlow' hhigh' (by omega),
    decodeFrom_more (Nat.le_add_left _ _)
      (by change _ ≤ 0xBF; omega) (by omega),
    decodeFrom_last (by omega)]
  congr 2
  omega

theorem toNat_lt_or_gt (c : Char) : c.toNat < 0xD800 ∨ 0xDFFF < c.toNat ∧ c.toNat < 0x110000 :=
  c.valid

/-- The bytes of a character, from its number. -/
theorem encodeChar_eq (c : Char) : String.utf8EncodeChar c =
    if c.toNat ≤ 0x7f then [UInt8.ofNat c.toNat]
    else if c.toNat ≤ 0x7ff then
      [UInt8.ofNat (c.toNat / 64 % 0x20 + 0xc0), UInt8.ofNat (c.toNat % 0x40 + 0x80)]
    else if c.toNat ≤ 0xffff then
      [UInt8.ofNat (c.toNat / 4096 % 0x10 + 0xe0), UInt8.ofNat (c.toNat / 64 % 0x40 + 0x80),
        UInt8.ofNat (c.toNat % 0x40 + 0x80)]
    else
      [UInt8.ofNat (c.toNat / 262144 % 0x08 + 0xf0), UInt8.ofNat (c.toNat / 4096 % 0x40 + 0x80),
        UInt8.ofNat (c.toNat / 64 % 0x40 + 0x80), UInt8.ofNat (c.toNat % 0x40 + 0x80)] := rfl

/-- A character is read back from its bytes, whatever follows. -/
theorem decodeFrom_encodeChar (c : Char) (rest : List UInt8) :
    decodeFrom none (String.utf8EncodeChar c ++ rest) = c :: decodeFrom none rest := by
  have hvalid := toNat_lt_or_gt c
  have hread : decodeFrom none (String.utf8EncodeChar c ++ rest) =
      Char.ofNat c.toNat :: decodeFrom none rest := by
    rw [encodeChar_eq]
    split
    · have hb := UInt8.toNat_ofNat_of_lt' (show c.toNat < 256 by omega)
      rw [List.cons_append, decodeFrom_begin, begin_ascii (by omega), hb]
      rfl
    · split
      · exact decode_two (by omega) (by omega) rest
      · split
        · exact decode_three (by omega) (by omega) (by omega) rest
        · exact decode_four (by omega) (by omega) rest
  rw [hread, Char.ofNat_toNat]

theorem encode_ofList_cons (c : Char) (cs : List Char) :
    encode (String.ofList (c :: cs)) = String.utf8EncodeChar c ++ encode (String.ofList cs) := by
  simp only [encode, String.toList_ofList, List.flatMap_cons]

/-- Every text is read back from its bytes. -/
theorem decodeLossy_encode (text : String) : decodeLossy (encode text) = text := by
  have hchars : ∀ cs, decodeFrom none (encode (String.ofList cs)) = cs := by
    intro cs
    induction cs with
    | nil => rfl
    | cons c cs ih => rw [encode_ofList_cons, decodeFrom_encodeChar, ih]
  have h := hchars text.toList
  rw [String.ofList_toList] at h
  rw [decodeLossy, h, String.ofList_toList]

/-! ## Zero bytes -/

theorem ofNat_ne_zero {n : Nat} (hpos : 0 < n) (h : n < 256) : UInt8.ofNat n ≠ 0 := by
  intro heq
  have hzero := congrArg UInt8.toNat heq
  rw [UInt8.toNat_ofNat_of_lt' h] at hzero
  exact absurd hzero (Nat.pos_iff_ne_zero.1 hpos)

theorem encodeChar_ne_zero {c : Char} (hc : c ≠ '\x00') : ∀ b ∈ String.utf8EncodeChar c, b ≠ 0 := by
  have hpos : 0 < c.toNat := by
    apply Nat.pos_of_ne_zero
    intro hzero
    apply hc
    rw [← Char.ofNat_toNat c, hzero]
  have hvalid := toNat_lt_or_gt c
  rw [encodeChar_eq]
  split
  · rw [List.forall_mem_singleton]
    exact ofNat_ne_zero hpos (by omega)
  · split
    · rw [List.forall_mem_cons, List.forall_mem_singleton]
      exact ⟨ofNat_ne_zero (by omega) (by omega), ofNat_ne_zero (by omega) (by omega)⟩
    · split
      · rw [List.forall_mem_cons, List.forall_mem_cons, List.forall_mem_singleton]
        exact ⟨ofNat_ne_zero (by omega) (by omega), ofNat_ne_zero (by omega) (by omega),
          ofNat_ne_zero (by omega) (by omega)⟩
      · rw [List.forall_mem_cons, List.forall_mem_cons, List.forall_mem_cons,
          List.forall_mem_singleton]
        exact ⟨ofNat_ne_zero (by omega) (by omega), ofNat_ne_zero (by omega) (by omega),
          ofNat_ne_zero (by omega) (by omega), ofNat_ne_zero (by omega) (by omega)⟩

/-- Only the zero character has a zero byte. -/
theorem encode_ne_zero {text : String} (h : '\x00' ∉ text.toList) : ∀ b ∈ encode text, b ≠ 0 := by
  intro b hb
  obtain ⟨c, hc, hb⟩ := List.mem_flatMap.1 hb
  apply encodeChar_ne_zero _ b hb
  rintro rfl
  exact h hc

end MapScript.Text.Utf8
