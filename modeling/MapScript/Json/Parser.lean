import MapScript.Json.Token

/-!
# Reading JSON

The grammar of JSON as a machine that takes one token at a time and keeps the containers that are
still open on a stack, so that reading is a fold over the tokens.
-/

namespace MapScript.Json

/-- A container whose next value is awaited, its contents latest first. -/
inductive Frame where
  | array (items : List Json)
  | object (members : List (Literal × Json)) (name : Literal)
deriving Inhabited

/-- What may come next. -/
inductive State where
  /-- A value. -/
  | value (outer : List Frame)
  /-- A value or the end of the array just opened. -/
  | firstItem (outer : List Frame)
  /-- A name or the end of the object just opened. -/
  | firstName (outer : List Frame)
  /-- A name, after a comma. -/
  | name (members : List (Literal × Json)) (outer : List Frame)
  /-- The colon after a name. -/
  | colon (members : List (Literal × Json)) (name : Literal) (outer : List Frame)
  /-- A comma or the end of an array. -/
  | afterItem (items : List Json) (outer : List Frame)
  /-- A comma or the end of an object. -/
  | afterMember (members : List (Literal × Json)) (outer : List Frame)
  /-- The end of the text. -/
  | done (value : Json)
deriving Inhabited

/-- Why a token cannot stand where it stands. -/
inductive Problem where
  | endOfText
  | expectedValue
  | nameNotString
  | expectedColon
  | expectedCommaOrBracket
  | expectedCommaOrBrace
  | trailingComma
  | trailingCharacters
deriving DecidableEq, Repr

namespace Problem

def message : Problem → String
  | endOfText => "EOF while parsing a value"
  | expectedValue => "expected value"
  | nameNotString => "key must be a string"
  | expectedColon => "expected `:`"
  | expectedCommaOrBracket => "expected `,` or `]`"
  | expectedCommaOrBrace => "expected `,` or `\x7d`"
  | trailingComma => "trailing comma"
  | trailingCharacters => "trailing characters"

end Problem

namespace State

/-- Hands a complete value to the innermost open container. -/
def deliver (v : Json) : List Frame → State
  | [] => .done v
  | .array items :: rest => .afterItem (v :: items) rest
  | .object members key :: rest => .afterMember ((key, v) :: members) rest

/-- Starts a value. -/
def start (outer : List Frame) : Token → Except Problem State
  | .openBrace => .ok (.firstName outer)
  | .openBracket => .ok (.firstItem outer)
  | .null => .ok (deliver .null outer)
  | .bool b => .ok (deliver (.bool b) outer)
  | .int n => .ok (deliver (.int n) outer)
  | .real n => .ok (deliver (.real n) outer)
  | .str s => .ok (deliver (.str s) outer)
  | _ => .error .expectedValue

/-- Takes one token. -/
def step : State → Token → Except Problem State
  | value outer, t => start outer t
  | firstItem outer, .closeBracket => .ok (deliver (.arr []) outer)
  | firstItem outer, t => start (.array [] :: outer) t
  | firstName outer, .closeBrace => .ok (deliver (.obj []) outer)
  | firstName outer, .str s => .ok (.colon [] s outer)
  | firstName _, _ => .error .nameNotString
  | name members outer, .str s => .ok (.colon members s outer)
  | name _ _, .closeBrace => .error .trailingComma
  | name _ _, _ => .error .nameNotString
  | colon members s outer, .colon => .ok (.value (.object members s :: outer))
  | colon _ _ _, _ => .error .expectedColon
  | afterItem items outer, .comma => .ok (.value (.array items :: outer))
  | afterItem items outer, .closeBracket => .ok (deliver (.arr items.reverse) outer)
  | afterItem _ _, _ => .error .expectedCommaOrBracket
  | afterMember members outer, .comma => .ok (.name members outer)
  | afterMember members outer, .closeBrace => .ok (deliver (.obj members.reverse) outer)
  | afterMember _ _, _ => .error .expectedCommaOrBrace
  | done _, _ => .error .trailingCharacters

end State

/-- Runs the machine. A problem comes with the text from the token it was met at, or with the
empty text when the tokens ran out. -/
def run : State → List (Token × List Char) → Except (Problem × List Char) Json
  | .done v, [] => .ok v
  | _, [] => .error (.endOfText, [])
  | state, (t, place) :: ts =>
    match state.step t with
    | .ok next => run next ts
    | .error p => .error (p, place)

/-- A problem with its place: lines count from one, and the column is the number of bytes of the
line up to and including the first byte that does not fit. -/
structure Error where
  problem : Problem
  line : Nat
  column : Nat
deriving DecidableEq, Repr

namespace Error

def message (e : Error) : String :=
  s!"{e.problem.message} at line {e.line} column {e.column}"

/-- Places a problem in the text that ends with `rest`. -/
def locate (text : List Char) (p : Problem) (rest : List Char) : Error :=
  let before := text.take (text.length - rest.length)
  let line := (before.reverse.takeWhile (· ≠ '\n'))
  { problem := p
    line := 1 + before.count '\n'
    column := (line.map Char.utf8Size).foldl (· + ·) 0 + (if rest.isEmpty then 0 else 1) }

end Error

/-- Reads a text that holds one JSON value. -/
def parse (text : String) : Except Error Json :=
  match run (.value []) (Token.cut text.toList) with
  | .ok v => .ok v
  | .error (p, rest) => .error (Error.locate text.toList p rest)

/-- Reads a text that holds one JSON value, without saying why it cannot be read. -/
def parse? (text : String) : Option Json :=
  (parse text).toOption

end MapScript.Json
