import MapScript.Json.Basic

/-!
# JSON tokens

The lexical level of JSON in both directions: the spelling of a token, and the cutting of a text
into tokens. A character that starts no token is a token of its own, so that cutting never fails
and the grammar alone decides what is wrong.
-/

namespace MapScript.Json

inductive Token where
  | openBrace
  | closeBrace
  | openBracket
  | closeBracket
  | comma
  | colon
  | null
  | bool (value : Bool)
  | int (value : Int)
  | real (value : Numeral)
  | str (literal : Literal)
  /-- Nothing that JSON allows starts here. -/
  | stray
deriving DecidableEq, Repr

namespace Token

/-! ## Spelling -/

/-- A hexadecimal digit. -/
def hexDigit (n : Nat) : Char :=
  if n < 10 then Char.ofNat ('0'.toNat + n) else Char.ofNat ('a'.toNat + (n - 10))

/-- A character inside a string. Only quotes, backslashes and controls are escaped. -/
def spellChar (c : Char) : List Char :=
  match c with
  | '"' => ['\\', '"']
  | '\\' => ['\\', '\\']
  | '\x08' => ['\\', 'b']
  | '\t' => ['\\', 't']
  | '\n' => ['\\', 'n']
  | '\x0c' => ['\\', 'f']
  | '\r' => ['\\', 'r']
  | c =>
    if c.toNat < 0x20 then
      ['\\', 'u', '0', '0', hexDigit (c.toNat / 16), hexDigit (c.toNat % 16)]
    else [c]

/-- The digits of an integer. -/
def spellInt (n : Int) : List Char :=
  if n < 0 then '-' :: Nat.toDigits 10 n.natAbs else Nat.toDigits 10 n.natAbs

/-- The text of a token. Reals and unpaired strings are read but never written. -/
def spell : Token → List Char
  | openBrace => ['\x7b']
  | closeBrace => ['\x7d']
  | openBracket => ['[']
  | closeBracket => [']']
  | comma => [',']
  | colon => [':']
  | null => ['n', 'u', 'l', 'l']
  | bool true => ['t', 'r', 'u', 'e']
  | bool false => ['f', 'a', 'l', 's', 'e']
  | int n => spellInt n
  | str ⟨some s, _⟩ => '"' :: (s.toList.flatMap spellChar ++ ['"'])
  | str ⟨none, _⟩ | real _ | stray => []

/-! ## Strings -/

/-- A piece of a string literal: a character that stands for itself, a character given by its
one-letter escape, or a UTF-16 unit given by its number. -/
inductive Piece where
  | char (c : Char)
  | escape (c : Char)
  | unit (n : Nat)
deriving DecidableEq, Repr

/-- Whether a piece is written without an escape. -/
def Piece.isPlain : Piece → Bool
  | char _ => true
  | escape _ | unit _ => false

def hexValue? (c : Char) : Option Nat :=
  if '0' ≤ c ∧ c ≤ '9' then some (c.toNat - '0'.toNat)
  else if 'a' ≤ c ∧ c ≤ 'f' then some (c.toNat - 'a'.toNat + 10)
  else if 'A' ≤ c ∧ c ≤ 'F' then some (c.toNat - 'A'.toNat + 10)
  else none

/-- The unit written with four hexadecimal digits. -/
def unit? (a b c d : Char) : Option Nat := do
  return (((← hexValue? a) * 16 + (← hexValue? b)) * 16 + (← hexValue? c)) * 16 + (← hexValue? d)

/-- The character a one-letter escape stands for. -/
def unescape? : Char → Option Char
  | '"' => some '"'
  | '\\' => some '\\'
  | '/' => some '/'
  | 'b' => some '\x08'
  | 'f' => some '\x0c'
  | 'n' => some '\n'
  | 'r' => some '\r'
  | 't' => some '\t'
  | _ => none

/-- The pieces of a string literal up to its closing quote, and what follows it. -/
def scanString : List Char → Option (List Piece × List Char)
  | [] => none
  | '"' :: cs => some ([], cs)
  | '\\' :: 'u' :: a :: b :: c :: d :: cs => do
    let n ← unit? a b c d
    let (pieces, rest) ← scanString cs
    return (.unit n :: pieces, rest)
  | '\\' :: e :: cs => do
    let c ← unescape? e
    let (pieces, rest) ← scanString cs
    return (.escape c :: pieces, rest)
  | c :: cs =>
    if c = '\\' ∨ c.toNat < 0x20 then none
    else do
      let (pieces, rest) ← scanString cs
      return (.char c :: pieces, rest)

/-- Joins the pieces of a literal, surrogate pairs into one character each. -/
def join : List Piece → Option (List Char)
  | [] => some []
  | .char c :: ps | .escape c :: ps => (c :: ·) <$> join ps
  | .unit n :: .unit m :: ps =>
    if 0xD800 ≤ n ∧ n < 0xDC00 then
      if 0xDC00 ≤ m ∧ m < 0xE000 then
        (Char.ofNat (0x10000 + (n - 0xD800) * 0x400 + (m - 0xDC00)) :: ·) <$> join ps
      else none
    else if 0xDC00 ≤ n ∧ n < 0xE000 then none
    else (Char.ofNat n :: ·) <$> join (.unit m :: ps)
  | .unit n :: ps =>
    if 0xD800 ≤ n ∧ n < 0xE000 then none else (Char.ofNat n :: ·) <$> join ps

/-- The literal with the given pieces. -/
def literal (pieces : List Piece) : Literal :=
  ⟨(join pieces).map String.ofList, pieces.all Piece.isPlain⟩

/-! ## Numbers -/

def isDigit (c : Char) : Bool := '0' ≤ c && c ≤ '9'

def digitValue (c : Char) : Nat := c.toNat - '0'.toNat

/-- The value of a row of digits. -/
def digitsValue (ds : List Char) : Nat :=
  ds.foldl (fun n d => 10 * n + digitValue d) 0

/-- The integer part at the start of a text: one zero, or digits that do not start with zero. -/
def scanWhole (cs : List Char) : Option (List Char × List Char) :=
  match cs with
  | '0' :: rest => some (['0'], rest)
  | _ =>
    match cs.takeWhile isDigit with
    | [] => none
    | ds => some (ds, cs.dropWhile isDigit)

/-- The digits of a fraction, none when there is no point, and what follows them. -/
def scanFraction : List Char → Option (List Char × List Char)
  | '.' :: cs =>
    if cs.takeWhile isDigit = [] then none
    else some (cs.takeWhile isDigit, cs.dropWhile isDigit)
  | cs => some ([], cs)

/-- The sign of an exponent, positive when there is none, and what follows it. -/
def scanSign : List Char → Bool × List Char
  | '+' :: cs => (false, cs)
  | '-' :: cs => (true, cs)
  | cs => (false, cs)

/-- The power of ten of an exponent, zero when there is none, and what follows it. -/
def scanExponent : List Char → Option (Int × List Char)
  | e :: cs =>
    if e = 'e' ∨ e = 'E' then
      let (negative, cs) := scanSign cs
      let power := digitsValue (cs.takeWhile isDigit)
      if cs.takeWhile isDigit = [] then none
      else some (if negative then -power else power, cs.dropWhile isDigit)
    else some (0, e :: cs)
  | [] => some (0, [])

/-- Whether a fraction or an exponent starts here. -/
def continuesNumber : List Char → Bool
  | c :: _ => c = '.' || c = 'e' || c = 'E'
  | [] => false

/-- The number that starts with `cs`, after its sign. -/
def scanNumber (negative : Bool) (cs : List Char) : Option (Token × List Char) := do
  let (whole, rest) ← scanWhole cs
  if continuesNumber rest then
    let (fraction, rest) ← scanFraction rest
    let (exponent, rest) ← scanExponent rest
    return (.real ⟨whole.map digitValue, fraction.map digitValue, exponent⟩, rest)
  else if negative then
    if digitsValue whole = 0 then return (.real ⟨[0], [], 0⟩, rest)
    else return (.int (-(digitsValue whole)), rest)
  else return (.int (digitsValue whole), rest)

/-! ## Cutting -/

/-- The token at the start of a text that does not start with white space, and the text after
it. -/
def scan : Char → List Char → Token × List Char
  | '\x7b', cs => (.openBrace, cs)
  | '\x7d', cs => (.closeBrace, cs)
  | '[', cs => (.openBracket, cs)
  | ']', cs => (.closeBracket, cs)
  | ',', cs => (.comma, cs)
  | ':', cs => (.colon, cs)
  | 'n', 'u' :: 'l' :: 'l' :: cs => (.null, cs)
  | 't', 'r' :: 'u' :: 'e' :: cs => (.bool true, cs)
  | 'f', 'a' :: 'l' :: 's' :: 'e' :: cs => (.bool false, cs)
  | '"', cs =>
    match scanString cs with
    | some (pieces, rest) => (.str (literal pieces), rest)
    | none => (.stray, cs)
  | '-', cs =>
    match scanNumber true cs with
    | some r => r
    | none => (.stray, cs)
  | c, cs =>
    match scanNumber false (c :: cs) with
    | some r => r
    | none => (.stray, cs)

/-- White space between tokens. -/
def isSpace (c : Char) : Bool := c = ' ' || c = '\t' || c = '\n' || c = '\r'

theorem length_scanString : ∀ (cs : List Char) {pieces : List Piece} {rest : List Char},
    scanString cs = some (pieces, rest) → rest.length < cs.length := by
  intro cs
  fun_induction scanString cs with
  | case1 => simp
  | case2 cs => intro pieces rest h; simp_all
  | case3 a b c d cs ih =>
    intro pieces rest h
    simp only [Option.bind_eq_bind, Option.bind_eq_some_iff, Option.pure_def, Option.some.injEq,
      Prod.mk.injEq, Prod.exists] at h
    obtain ⟨_, _, ps, r, hr, rfl, rfl⟩ := h
    have := ih hr
    simp only [List.length_cons]
    omega
  | case4 e cs _ ih =>
    intro pieces rest h
    simp only [Option.bind_eq_bind, Option.bind_eq_some_iff, Option.pure_def, Option.some.injEq,
      Prod.mk.injEq, Prod.exists] at h
    obtain ⟨_, _, ps, r, hr, rfl, rfl⟩ := h
    have := ih hr
    simp only [List.length_cons]
    omega
  | case5 c cs _ => intro pieces rest h; simp_all
  | case6 c cs _ _ _ _ ih =>
    intro pieces rest h
    simp only [Option.bind_eq_bind, Option.bind_eq_some_iff, Option.pure_def, Option.some.injEq,
      Prod.mk.injEq, Prod.exists] at h
    obtain ⟨ps, r, hr, rfl, rfl⟩ := h
    have := ih hr
    simp only [List.length_cons]
    omega

theorem length_dropWhile_le (p : Char → Bool) (cs : List Char) :
    (cs.dropWhile p).length ≤ cs.length :=
  (List.dropWhile_sublist p).length_le

theorem length_scanWhole {cs ds rest : List Char} (h : scanWhole cs = some (ds, rest)) :
    rest.length < cs.length := by
  unfold scanWhole at h
  split at h
  · simp only [Option.some.injEq, Prod.mk.injEq] at h
    simp [← h.2]
  · split at h
    · simp at h
    · rename_i hds
      simp only [Option.some.injEq, Prod.mk.injEq] at h
      obtain ⟨-, rfl⟩ := h
      have hlen := congrArg List.length (List.takeWhile_append_dropWhile (p := isDigit) (l := cs))
      rw [List.length_append] at hlen
      have : (cs.takeWhile isDigit).length ≠ 0 := by
        intro h0
        exact hds (List.eq_nil_of_length_eq_zero h0)
      omega

theorem length_scanFraction {cs ds rest : List Char} (h : scanFraction cs = some (ds, rest)) :
    rest.length ≤ cs.length := by
  unfold scanFraction at h
  split at h
  · rename_i cs
    split at h
    · simp at h
    · simp only [Option.some.injEq, Prod.mk.injEq] at h
      have := length_dropWhile_le isDigit cs
      simp only [← h.2, List.length_cons]
      omega
  · simp_all

theorem length_scanSign (cs : List Char) : (scanSign cs).2.length ≤ cs.length := by
  fun_cases scanSign cs <;> simp

theorem length_scanExponent {cs rest : List Char} {power : Int}
    (h : scanExponent cs = some (power, rest)) : rest.length ≤ cs.length := by
  unfold scanExponent at h
  split at h
  · rename_i e cs
    split at h
    · simp only [Option.ite_none_left_eq_some, Option.some.injEq, Prod.mk.injEq] at h
      have h1 := length_dropWhile_le isDigit (scanSign cs).2
      have h2 := length_scanSign cs
      simp only [← h.2.2, List.length_cons]
      omega
    · simp_all
  · simp_all

theorem length_scanNumber {negative : Bool} {cs rest : List Char} {t : Token}
    (h : scanNumber negative cs = some (t, rest)) : rest.length < cs.length := by
  unfold scanNumber at h
  simp only [Option.bind_eq_bind, Option.bind_eq_some_iff, Prod.exists] at h
  obtain ⟨ds, r, hr, h⟩ := h
  have h1 := length_scanWhole hr
  split at h
  · simp only [Option.bind_eq_some_iff, Option.pure_def, Option.some.injEq, Prod.mk.injEq,
      Prod.exists] at h
    obtain ⟨_, r', hr', _, r'', hr'', -, rfl⟩ := h
    have h2 := length_scanFraction hr'
    have h3 := length_scanExponent hr''
    omega
  · split at h
    · split at h <;> simp_all
    · simp_all

theorem length_scan (c : Char) (cs : List Char) : (scan c cs).2.length ≤ cs.length := by
  fun_cases scan c cs with
  | case10 cs pieces rest h => exact Nat.le_of_lt (length_scanString cs h)
  | case12 cs r h => exact Nat.le_of_lt (length_scanNumber h)
  | case14 c cs _ _ _ _ _ _ _ _ _ _ _ r h =>
    have := length_scanNumber h
    simp only [List.length_cons] at this
    omega
  | _ => simp only [List.length_cons]; omega

/-- The tokens of a text, each with the text from its first character on. -/
def cut : List Char → List (Token × List Char)
  | [] => []
  | c :: cs =>
    if isSpace c then cut cs
    else (((scan c cs).1, c :: cs)) :: cut (scan c cs).2
termination_by cs => cs.length
decreasing_by
  · simp
  · have := length_scan c cs
    simp only [List.length_cons]
    omega

end Token

end MapScript.Json
