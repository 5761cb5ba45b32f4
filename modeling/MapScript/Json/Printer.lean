import MapScript.Json.Token

/-!
# Writing JSON

A compact form without white space, and an indented form with one item or member on a line.
-/

namespace MapScript.Json

mutual

/-- The tokens of a value, in order. -/
def tokens : Json → List Token
  | .null => [.null]
  | .bool b => [.bool b]
  | .int n => [.int n]
  | .real n => [.real n]
  | .str s => [.str s]
  | .arr [] => [.openBracket, .closeBracket]
  | .arr (v :: vs) => .openBracket :: (tokens v ++ itemTokens vs)
  | .obj [] => [.openBrace, .closeBrace]
  | .obj ((name, v) :: ms) => .openBrace :: .str name :: .colon :: (tokens v ++ memberTokens ms)

/-- The tokens from the end of one item to the end of its array. -/
def itemTokens : List Json → List Token
  | [] => [.closeBracket]
  | v :: vs => .comma :: (tokens v ++ itemTokens vs)

/-- The tokens from the end of one member to the end of its object. -/
def memberTokens : List (Literal × Json) → List Token
  | [] => [.closeBrace]
  | (name, v) :: ms => .comma :: .str name :: .colon :: (tokens v ++ memberTokens ms)

end

/-- The compact text of a value. -/
def compact (v : Json) : String :=
  String.ofList (v.tokens.flatMap Token.spell)

/-- A line break and the indentation of the given depth. -/
def newline (depth : Nat) : List Char := '\n' :: List.replicate (2 * depth) ' '

mutual

/-- The indented text of a value that starts at the given depth. -/
def indented (depth : Nat) : Json → List Char
  | .arr (v :: vs) =>
    '[' :: (newline (depth + 1) ++ indented (depth + 1) v ++ indentedItems depth vs)
  | .obj ((name, v) :: ms) =>
    '\x7b' :: (newline (depth + 1) ++ Token.spell (.str name) ++ ':' :: ' ' ::
      indented (depth + 1) v ++ indentedMembers depth ms)
  | .arr [] => ['[', ']']
  | .obj [] => ['\x7b', '\x7d']
  | .null => Token.spell .null
  | .bool b => Token.spell (.bool b)
  | .int n => Token.spell (.int n)
  | .real n => Token.spell (.real n)
  | .str s => Token.spell (.str s)

/-- The items after the first, and the end of their array. -/
def indentedItems (depth : Nat) : List Json → List Char
  | [] => newline depth ++ [']']
  | v :: vs => ',' :: (newline (depth + 1) ++ indented (depth + 1) v ++ indentedItems depth vs)

/-- The members after the first, and the end of their object. -/
def indentedMembers (depth : Nat) : List (Literal × Json) → List Char
  | [] => newline depth ++ ['\x7d']
  | (name, v) :: ms =>
    ',' :: (newline (depth + 1) ++ Token.spell (.str name) ++ ':' :: ' ' ::
      indented (depth + 1) v ++ indentedMembers depth ms)

end

/-- The indented text of a value. -/
def pretty (v : Json) : String := String.ofList (v.indented 0)

end MapScript.Json
