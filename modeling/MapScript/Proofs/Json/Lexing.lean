import MapScript.Json.Parser
import MapScript.Json.Printer

/-!
# Tokens read back

A token that is written is cut off again whole, whatever text comes after it: `Token.cut_spell`.
Only a number could run into what follows, so there the text after it must not go on like one.
-/

namespace MapScript.Json

namespace Token

/-! ## Strings -/

/-- The piece a character is written as. -/
def piece (c : Char) : Piece :=
  match c with
  | '"' | '\\' | '\x08' | '\t' | '\n' | '\x0c' | '\r' => .escape c
  | c => if c.toNat < 0x20 then .unit c.toNat else .char c

theorem unit?_control :
    ∀ n < 0x20, unit? '0' '0' (hexDigit (n / 16)) (hexDigit (n % 16)) = some n := by
  decide

/-- Puts a piece in front of what a scan gives. -/
def withPiece (p : Piece) (r : Option (List Piece × List Char)) : Option (List Piece × List Char) :=
  r.map fun (pieces, rest) => (p :: pieces, rest)

theorem scanString_escape {e c : Char} (he : unescape? e = some c) (cs : List Char) :
    scanString ('\\' :: e :: cs) = withPiece (.escape c) (scanString cs) := by
  have hu : e ≠ 'u' := by
    rintro rfl
    cases he
  rw [scanString, he]
  · cases scanString cs <;> rfl
  · intro _ _ _ _ _ h
    exact absurd h hu

theorem scanString_unit {n : Nat} (hn : n < 0x20) (cs : List Char) :
    scanString ('\\' :: 'u' :: '0' :: '0' :: hexDigit (n / 16) :: hexDigit (n % 16) :: cs) =
      withPiece (.unit n) (scanString cs) := by
  rw [scanString, unit?_control n hn]
  cases scanString cs <;> rfl

theorem scanString_char {c : Char} (hquote : c ≠ '"') (hslash : c ≠ '\\')
    (hcontrol : ¬ c.toNat < 0x20) (cs : List Char) :
    scanString (c :: cs) = withPiece (.char c) (scanString cs) := by
  rw [scanString]
  · rw [if_neg (by simp [hslash, hcontrol])]
    cases scanString cs <;> rfl
  · exact hquote
  · exact fun _ _ _ _ _ h => absurd h hslash
  · exact fun _ _ h => absurd h hslash

theorem scanString_spellChar (c : Char) (cs : List Char) :
    scanString (spellChar c ++ cs) = withPiece (piece c) (scanString cs) := by
  unfold spellChar
  split
  · exact scanString_escape rfl cs
  · exact scanString_escape rfl cs
  · exact scanString_escape rfl cs
  · exact scanString_escape rfl cs
  · exact scanString_escape rfl cs
  · exact scanString_escape rfl cs
  · exact scanString_escape rfl cs
  · rename_i hquote hslash _ _ _ _ _
    have hpiece : piece c = if c.toNat < 0x20 then .unit c.toNat else .char c := by
      unfold piece
      split <;> simp_all
    rw [hpiece]
    split
    · rename_i hcontrol
      exact scanString_unit hcontrol cs
    · rename_i hcontrol
      exact scanString_char hquote hslash hcontrol cs

theorem scanString_spell (cs rest : List Char) :
    scanString (cs.flatMap spellChar ++ '"' :: rest) = some (cs.map piece, rest) := by
  induction cs with
  | nil => rfl
  | cons c cs ih =>
      rw [List.flatMap_cons, List.append_assoc, scanString_spellChar, ih]
      rfl

theorem piece_cases (c : Char) :
    piece c = .escape c ∧ isPlain c = false ∨
      c.toNat < 0x20 ∧ piece c = .unit c.toNat ∧ isPlain c = false ∨
      piece c = .char c ∧ isPlain c = true := by
  unfold piece
  split
  · exact .inl ⟨rfl, rfl⟩
  · exact .inl ⟨rfl, rfl⟩
  · exact .inl ⟨rfl, rfl⟩
  · exact .inl ⟨rfl, rfl⟩
  · exact .inl ⟨rfl, rfl⟩
  · exact .inl ⟨rfl, rfl⟩
  · exact .inl ⟨rfl, rfl⟩
  · rename_i hquote hslash _ _ _ _ _
    right
    split
    · rename_i hcontrol
      refine .inl ⟨hcontrol, rfl, ?_⟩
      simp [isPlain, Nat.not_le.2 hcontrol]
    · rename_i hcontrol
      refine .inr ⟨rfl, ?_⟩
      simp only [isPlain, Bool.and_eq_true, decide_eq_true_eq]
      exact ⟨⟨hquote, hslash⟩, Nat.not_lt.1 hcontrol⟩

theorem join_unit {n : Nat} (hn : n < 0x20) (pieces : List Piece) :
    join (.unit n :: pieces) = (Char.ofNat n :: ·) <$> join pieces := by
  have hhigh : ¬ (0xD800 ≤ n ∧ n < 0xDC00) := by omega
  have hlow : ¬ (0xDC00 ≤ n ∧ n < 0xE000) := by omega
  have hsingle : ¬ (0xD800 ≤ n ∧ n < 0xE000) := by omega
  match pieces with
  | .unit m :: pieces => rw [join, if_neg hhigh, if_neg hlow]
  | [] => exact if_neg hsingle
  | .char c :: pieces => exact if_neg hsingle
  | .escape c :: pieces => exact if_neg hsingle

theorem join_piece (cs : List Char) : join (cs.map piece) = some cs := by
  induction cs with
  | nil => rfl
  | cons c cs ih =>
      rw [List.map_cons]
      rcases piece_cases c with ⟨hpiece, _⟩ | ⟨hcontrol, hpiece, _⟩ | ⟨hpiece, _⟩
      · rw [hpiece, join, ih]
        rfl
      · rw [hpiece, join_unit hcontrol, ih, Char.ofNat_toNat]
        rfl
      · rw [hpiece, join, ih]
        rfl

theorem isPlain_piece (c : Char) : (piece c).isPlain = isPlain c := by
  rcases piece_cases c with ⟨hpiece, hplain⟩ | ⟨_, hpiece, hplain⟩ | ⟨hpiece, hplain⟩
  · rw [hpiece, hplain, Piece.isPlain]
  · rw [hpiece, hplain, Piece.isPlain]
  · rw [hpiece, hplain, Piece.isPlain]

theorem literal_piece (s : String) : literal (s.toList.map piece) = .ofString s := by
  have hplain : (s.toList.map piece).all Piece.isPlain = s.toList.all isPlain := by
    rw [List.all_map]
    exact congrArg s.toList.all (funext isPlain_piece)
  rw [literal, join_piece, hplain, Option.map_some, String.ofList_toList, Literal.ofString]

/-! ## Integers -/

/-- Nothing that could continue a number. -/
def EndsNumber (rest : List Char) : Prop :=
  ∀ c ∈ rest.head?, isDigit c = false ∧ c ≠ '.' ∧ c ≠ 'e' ∧ c ≠ 'E'

theorem isDigit_toDigits {n : Nat} {c : Char} (hc : c ∈ Nat.toDigits 10 n) : isDigit c = true := by
  have h := Nat.isDigit_of_mem_toDigits (by omega) (by omega) hc
  simpa [isDigit, Char.isDigit, Char.le_def] using h

theorem digitsValue_toDigits (n : Nat) : digitsValue (Nat.toDigits 10 n) = n := by
  have h := @Nat.ofDigitChars_ten_toDigits n
  rwa [Nat.ofDigitChars_eq_foldl] at h

theorem digitChar_ne_zero : ∀ n < 10, 0 < n → n.digitChar ≠ '0' := by
  decide

theorem toDigits_eq_cons (n : Nat) : ∃ d ds, Nat.toDigits 10 n = d :: ds :=
  List.exists_cons_of_ne_nil Nat.toDigits_ne_nil

/-- Only zero is written with a zero in front. -/
theorem head_toDigits {n : Nat} {d : Char} {ds : List Char} (hn : 0 < n)
    (hds : Nat.toDigits 10 n = d :: ds) : d ≠ '0' := by
  induction n using Nat.strongRecOn generalizing d ds with
  | _ n ih =>
      by_cases h : n < 10
      · rw [Nat.toDigits_of_lt_base h] at hds
        cases hds
        exact digitChar_ne_zero n h hn
      · obtain ⟨d', ds', hds'⟩ := toDigits_eq_cons (n / 10)
        rw [Nat.toDigits_of_base_le (by omega) (by omega), hds', List.cons_append] at hds
        cases hds
        exact ih (n / 10) (by omega) (by omega) hds'

theorem takeWhile_digits {ds rest : List Char} (hds : ∀ c ∈ ds, isDigit c = true)
    (hrest : EndsNumber rest) : (ds ++ rest).takeWhile isDigit = ds ∧
      (ds ++ rest).dropWhile isDigit = rest := by
  rw [List.takeWhile_append_of_pos hds, List.dropWhile_append_of_pos hds]
  cases rest with
  | nil => simp
  | cons c rest =>
      have hc := (hrest c rfl).1
      simp [hc]

theorem scanWhole_toDigits (n : Nat) {rest : List Char} (hrest : EndsNumber rest) :
    scanWhole (Nat.toDigits 10 n ++ rest) = some (Nat.toDigits 10 n, rest) := by
  by_cases hn : n = 0
  · subst hn
    rfl
  · obtain ⟨htake, hdrop⟩ := takeWhile_digits (fun c => isDigit_toDigits (n := n)) hrest
    obtain ⟨d, ds, hds⟩ := toDigits_eq_cons n
    have hhead : d ≠ '0' := head_toDigits (by omega) hds
    rw [hds] at htake hdrop ⊢
    unfold scanWhole
    split
    · rename_i heq
      cases heq
      exact absurd rfl hhead
    · rw [htake, hdrop]

theorem continuesNumber_eq_false {rest : List Char} (hrest : EndsNumber rest) :
    continuesNumber rest = false := by
  cases rest with
  | nil => rfl
  | cons c rest => simp [continuesNumber, hrest c rfl]

theorem scanNumber_toDigits (n : Nat) {rest : List Char} (hrest : EndsNumber rest) :
    scanNumber false (Nat.toDigits 10 n ++ rest) = some (.int n, rest) := by
  rw [scanNumber, scanWhole_toDigits n hrest]
  simp [continuesNumber_eq_false hrest, digitsValue_toDigits]

theorem scanNumber_negative {n : Nat} (hn : 0 < n) {rest : List Char} (hrest : EndsNumber rest) :
    scanNumber true (Nat.toDigits 10 n ++ rest) = some (.int (-n), rest) := by
  rw [scanNumber, scanWhole_toDigits n hrest]
  simp [continuesNumber_eq_false hrest, digitsValue_toDigits, Nat.ne_of_gt hn]

theorem scan_digit {c : Char} (hc : isDigit c = true) (cs : List Char) :
    scan c cs = match scanNumber false (c :: cs) with
      | some r => r
      | none => (.stray, cs) := by
  unfold scan
  split <;> first | rfl | cases hc

/-! ## Cutting -/

/-- A token that is written. -/
def Written : Token → Prop
  | real _ | stray => False
  | str literal => ∃ s, literal = .ofString s
  | _ => True

/-- The text after a token does not belong to it. -/
def Follows (t : Token) (rest : List Char) : Prop :=
  match t with
  | int _ => EndsNumber rest
  | _ => True

theorem cut_cons {c : Char} {cs rest : List Char} {t : Token} (hspace : isSpace c = false)
    (hscan : scan c cs = (t, rest)) : cut (c :: cs) = (t, c :: cs) :: cut rest := by
  rw [cut, hspace, hscan]
  rfl

theorem cut_natural (n : Nat) {rest : List Char} (hrest : EndsNumber rest) :
    cut (Nat.toDigits 10 n ++ rest) = (.int n, Nat.toDigits 10 n ++ rest) :: cut rest := by
  have hscan := scanNumber_toDigits n hrest
  obtain ⟨d, ds, hds⟩ := toDigits_eq_cons n
  have hdigit : isDigit d = true := isDigit_toDigits (hds ▸ List.mem_cons_self)
  have hspace : isSpace d = false := by
    cases hd : isSpace d with
    | false => rfl
    | true =>
        simp only [isSpace, Bool.or_eq_true, decide_eq_true_eq] at hd
        rcases hd with ((rfl | rfl) | rfl) | rfl <;> cases hdigit
  rw [hds, List.cons_append] at hscan ⊢
  refine cut_cons hspace ?_
  rw [scan_digit hdigit, hscan]

theorem cut_int (n : Int) {rest : List Char} (hrest : EndsNumber rest) :
    cut (spellInt n ++ rest) = (.int n, spellInt n ++ rest) :: cut rest := by
  unfold spellInt
  split
  · rename_i hn
    have hnegative : (-(n.natAbs : Int)) = n := by omega
    rw [List.cons_append]
    refine cut_cons rfl ?_
    simp only [scan, scanNumber_negative (show 0 < n.natAbs by omega) hrest, hnegative]
  · have hnatural : (n.natAbs : Int) = n := by omega
    have hcut := cut_natural n.natAbs hrest
    rwa [hnatural] at hcut

/-- A token is cut off from the text that it starts. -/
theorem cut_spell {t : Token} {rest : List Char} (ht : t.Written) (hrest : t.Follows rest) :
    cut (t.spell ++ rest) = (t, t.spell ++ rest) :: cut rest := by
  cases t with
  | int n => exact cut_int n hrest
  | bool value => cases value <;> exact cut_cons rfl rfl
  | str literal =>
      obtain ⟨s, rfl⟩ := ht
      have hspell : spell (.str (.ofString s)) ++ rest =
          '"' :: (s.toList.flatMap spellChar ++ '"' :: rest) := by
        rw [Literal.ofString, spell, List.cons_append, List.append_assoc, List.singleton_append]
      rw [hspell]
      refine cut_cons rfl ?_
      simp only [scan, scanString_spell, literal_piece]
  | real value => exact ht.elim
  | stray => exact ht.elim
  | openBrace | closeBrace | openBracket | closeBracket | comma | colon | null =>
      exact cut_cons rfl rfl

end Token

end MapScript.Json
