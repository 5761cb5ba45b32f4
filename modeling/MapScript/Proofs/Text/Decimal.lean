import MapScript.Text.Decimal

/-!
# What decimal texts stand for

`Denotes` is the grammar of decimal integers: an optional sign and at least one digit.  Reading
within bounds that allow a minus sign accepts exactly the texts of this grammar whose value is
within the bounds, and the usual way to write an integer is one of them.
-/

namespace MapScript.Text.Decimal

/-- At least one digit, and nothing else, with the given value. -/
structure Digits (cs : List Char) (n : Nat) : Prop where
  some : cs ≠ []
  digits : ∀ c ∈ cs, c.isDigit = true
  value : Nat.ofDigitChars 10 cs 0 = n

/-- The integer that a text stands for. -/
inductive Denotes : List Char → Int → Prop
  | plain {cs : List Char} {n : Nat} (h : Digits cs n) : Denotes cs n
  | plus {cs : List Char} {n : Nat} (h : Digits cs n) : Denotes ('+' :: cs) n
  | minus {cs : List Char} {n : Nat} (h : Digits cs n) : Denotes ('-' :: cs) (-n)

/-! ## Digits -/

theorem digit?_eq (c : Char) :
    digit? c = if c.isDigit = true then some (c.toNat - '0'.toNat) else none := by
  simp only [digit?, Char.isDigit, Bool.and_eq_true, decide_eq_true_eq]
  rfl

theorem le_ofDigitChars (cs : List Char) (acc : Nat) : acc ≤ Nat.ofDigitChars 10 cs acc := by
  induction cs generalizing acc with
  | nil => exact Nat.le_refl acc
  | cons c cs ih =>
      rw [Nat.ofDigitChars_cons]
      have hrest := ih (10 * acc + (c.toNat - '0'.toNat))
      omega

theorem readDigits_eq_ok_iff {limit acc n : Nat} {overflow : Cause} {cs : List Char}
    (hacc : acc ≤ limit) :
    readDigits limit overflow acc cs = .ok n ↔
      (∀ c ∈ cs, c.isDigit = true) ∧ Nat.ofDigitChars 10 cs acc = n ∧ n ≤ limit := by
  induction cs generalizing acc with
  | nil =>
      rw [readDigits, Except.ok.injEq, Nat.ofDigitChars_nil]
      constructor
      · rintro rfl
        exact ⟨List.forall_mem_nil _, rfl, hacc⟩
      · exact fun h => h.2.1
  | cons c cs ih =>
      have hmono := le_ofDigitChars cs (10 * acc + (c.toNat - '0'.toNat))
      rw [readDigits, digit?_eq, List.forall_mem_cons, Nat.ofDigitChars_cons]
      by_cases hc : c.isDigit = true
      · simp only [hc, if_true, true_and]
        by_cases hstep : 10 * acc + (c.toNat - '0'.toNat) ≤ limit
        · rw [if_pos hstep, ih hstep]
        · rw [if_neg hstep]
          refine iff_of_false nofun ?_
          -- the value only grows with further digits
          rintro ⟨-, hvalue, hle⟩
          omega
      · simp only [hc]
        exact iff_of_false nofun fun h => absurd h.1.1 nofun

theorem readDigits_iff {limit n : Nat} {overflow : Cause} {cs : List Char} (hcs : cs ≠ []) :
    readDigits limit overflow 0 cs = .ok n ↔ Digits cs n ∧ n ≤ limit := by
  rw [readDigits_eq_ok_iff (Nat.zero_le limit)]
  constructor
  · exact fun h => ⟨⟨hcs, h.1, h.2.1⟩, h.2.2⟩
  · exact fun h => ⟨h.1.digits, h.1.value, h.2⟩

theorem digits_toDigits (n : Nat) : Digits (Nat.toDigits 10 n) n :=
  ⟨Nat.toDigits_ne_nil, fun _ hc => Nat.isDigit_of_mem_toDigits (by decide) (by decide) hc,
    Nat.ofDigitChars_ten_toDigits⟩

/-! ## Signs -/

theorem Digits.ne_plus {cs : List Char} {n : Nat} (h : Digits cs n) (ds : List Char) :
    cs ≠ '+' :: ds := by
  rintro rfl
  cases h.digits '+' List.mem_cons_self

theorem Digits.ne_minus {cs : List Char} {n : Nat} (h : Digits cs n) (ds : List Char) :
    cs ≠ '-' :: ds := by
  rintro rfl
  cases h.digits '-' List.mem_cons_self

theorem denotes_plus_iff {cs : List Char} {n : Int} :
    Denotes ('+' :: cs) n ↔ ∃ m : Nat, Digits cs m ∧ n = m := by
  constructor
  · intro h
    cases h with
    | plain h => exact absurd rfl (h.ne_plus cs)
    | plus h => exact ⟨_, h, rfl⟩
  · rintro ⟨m, h, rfl⟩
    exact .plus h

theorem denotes_minus_iff {cs : List Char} {n : Int} :
    Denotes ('-' :: cs) n ↔ ∃ m : Nat, Digits cs m ∧ n = -m := by
  constructor
  · intro h
    cases h with
    | plain h => exact absurd rfl (h.ne_minus cs)
    | minus h => exact ⟨_, h, rfl⟩
  · rintro ⟨m, h, rfl⟩
    exact .minus h

theorem denotes_plain_iff {cs : List Char} (hplus : ∀ ds, cs ≠ '+' :: ds)
    (hminus : ∀ ds, cs ≠ '-' :: ds) {n : Int} :
    Denotes cs n ↔ ∃ m : Nat, Digits cs m ∧ n = m := by
  constructor
  · intro h
    cases h with
    | plain h => exact ⟨_, h, rfl⟩
    | plus h => exact absurd rfl (hplus _)
    | minus h => exact absurd rfl (hminus _)
  · rintro ⟨m, h, rfl⟩
    exact .plain h

theorem Denotes.ne_nil {cs : List Char} {n : Int} (h : Denotes cs n) : cs ≠ [] := by
  cases h with
  | plain h => exact h.some
  | plus h => exact List.cons_ne_nil _ _
  | minus h => exact List.cons_ne_nil _ _

theorem Denotes.digit_or_sign {cs : List Char} {n : Int} (h : Denotes cs n) {c : Char}
    (hc : c ∈ cs) : c.isDigit = true ∨ c = '+' ∨ c = '-' := by
  cases h with
  | plain h => exact .inl (h.digits c hc)
  | plus h =>
      rcases List.mem_cons.1 hc with hc | hc
      · exact .inr (.inl hc)
      · exact .inl (h.digits c hc)
  | minus h =>
      rcases List.mem_cons.1 hc with hc | hc
      · exact .inr (.inr hc)
      · exact .inl (h.digits c hc)

/-! ## Reading within bounds -/

/-- The digits after a sign, where the limit of their number is that of the signed one. -/
theorem readNat_eq_ok_iff {limit : Nat} {overflow : Cause} {cs : List Char} (hcs : cs ≠ [])
    {sign : Nat → Int} {low high : Int} (hlimit : ∀ m, m ≤ limit ↔ low ≤ sign m ∧ sign m ≤ high)
    {n : Int} :
    (do return sign (← readDigits limit overflow 0 cs)) = Except.ok n ↔
      (∃ m, Digits cs m ∧ n = sign m) ∧ low ≤ n ∧ n ≤ high := by
  cases hread : readDigits limit overflow 0 cs with
  | error cause =>
      refine iff_of_false nofun ?_
      rintro ⟨⟨m, hm, rfl⟩, hwithin⟩
      rw [(readDigits_iff hcs).2 ⟨hm, (hlimit m).2 hwithin⟩] at hread
      cases hread
  | ok m =>
      obtain ⟨hm, hle⟩ := (readDigits_iff hcs).1 hread
      constructor
      · intro h
        cases h
        exact ⟨⟨m, hm, rfl⟩, (hlimit m).1 hle⟩
      · rintro ⟨⟨k, hk, rfl⟩, -⟩
        rw [← hm.value, ← hk.value]
        rfl

/-- Reading accepts the texts of the grammar whose value is within bounds, when the bounds allow a
minus sign. -/
theorem read_eq_ok_iff {low high : Int} (hlow : low < 0) (hhigh : 0 ≤ high) {cs : List Char}
    {n : Int} : read low high cs = .ok n ↔ Denotes cs n ∧ low ≤ n ∧ n ≤ high := by
  unfold read
  split
  · exact iff_of_false nofun fun h => h.1.ne_nil rfl
  · refine iff_of_false nofun ?_
    rintro ⟨h, -⟩
    obtain ⟨m, hm, -⟩ := denotes_plus_iff.1 h
    exact hm.some rfl
  · refine iff_of_false nofun ?_
    rintro ⟨h, -⟩
    obtain ⟨m, hm, -⟩ := denotes_minus_iff.1 h
    exact hm.some rfl
  · rename_i cs hcs
    rw [denotes_plus_iff]
    exact readNat_eq_ok_iff hcs fun m => by omega
  · rename_i cs hcs
    rw [if_pos hlow, denotes_minus_iff]
    exact readNat_eq_ok_iff hcs fun m => by omega
  · rename_i hnil _ _ hplus hminus
    rw [denotes_plain_iff hplus hminus]
    exact readNat_eq_ok_iff hnil fun m => by omega

theorem readInt32_eq_ok_iff {cs : List Char} {n : Int32} :
    readInt32 cs = .ok n ↔ Denotes cs n.toInt := by
  have hn := n.toInt_lt
  have hn' := n.le_toInt
  have hread {k : Int} : read (-2147483648) 2147483647 cs = .ok k ↔
      Denotes cs k ∧ -2147483648 ≤ k ∧ k ≤ 2147483647 :=
    read_eq_ok_iff (by decide) (by decide)
  rw [readInt32]
  constructor
  · intro h
    cases hk : read (-2147483648) 2147483647 cs with
    | error cause =>
        rw [hk] at h
        cases h
    | ok k =>
        rw [hk] at h
        cases h
        obtain ⟨hden, hlow, hhigh⟩ := hread.1 hk
        rwa [Int32.toInt_ofInt_of_le (by omega) (by omega)]
  · intro h
    have hk := hread.2 ⟨h, by omega, by omega⟩
    rw [hk]
    exact congrArg Except.ok (Int32.ofInt_toInt n)

/-- A number without a sign is read under any lower bound. -/
theorem read_digits {low high : Int} {cs : List Char} {n : Nat} (h : Digits cs n)
    (hn : n ≤ high.toNat) : read low high cs = .ok n := by
  rw [read, (readDigits_iff h.some).2 ⟨h, hn⟩]
  · rfl
  · exact h.some
  · exact h.ne_plus []
  · exact h.ne_minus []
  · exact h.ne_plus
  · exact h.ne_minus

/-! ## Written integers -/

theorem denotes_toString (n : Int) : Denotes (toString n).toList n := by
  cases n with
  | ofNat m =>
      have htext : (toString (Int.ofNat m)).toList = Nat.toDigits 10 m := by
        rw [← String.toList_ofList (l := Nat.toDigits 10 m), ← Nat.toString_eq_ofList_toDigits]
        rfl
      rw [htext]
      exact .plain (digits_toDigits m)
  | negSucc m =>
      have htext : (toString (Int.negSucc m)).toList = '-' :: Nat.toDigits 10 (m + 1) := by
        rw [← String.toList_ofList (l := Nat.toDigits 10 (m + 1)),
          ← Nat.toString_eq_ofList_toDigits]
        change ("-" ++ toString (m + 1)).toList = _
        rw [String.toList_append]
        rfl
      rw [htext, Int.negSucc_eq]
      exact .minus (digits_toDigits (m + 1))

theorem readUInt32_toDigits (n : UInt32) : readUInt32 (Nat.toDigits 10 n.toNat) = .ok n := by
  have hn := n.toNat_lt
  rw [readUInt32, read_digits (digits_toDigits n.toNat) (by omega)]
  exact congrArg Except.ok UInt32.ofNat_toNat

end MapScript.Text.Decimal
