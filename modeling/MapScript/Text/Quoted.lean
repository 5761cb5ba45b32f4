import MapScript.Text.Extending
import MapScript.Text.Graphic
import MapScript.Text.Ignorable

/-!
# Quoted text

A text between double quotes, every character without a visible form of its own escaped.
-/

namespace MapScript.Text.Quoted

/-- Characters that cannot be told from the text around them when they are printed as they are. -/
def isHidden (c : Char) : Bool := isExtending c || isIgnorable c || !isGraphic c

/-- The escape of one character. -/
def escape (c : Char) : String :=
  match c with
  | '"' => "\\\""
  | '\\' => "\\\\"
  | '\t' => "\\t"
  | '\r' => "\\r"
  | '\n' => "\\n"
  | '\x00' => "\\0"
  | c =>
    if isHidden c then "\\u\x7b" ++ String.ofList (Nat.toDigits 16 c.toNat) ++ "\x7d"
    else String.singleton c

/-- The text between double quotes. -/
def quote (s : String) : String :=
  "\"" ++ String.join (s.toList.map escape) ++ "\""

end MapScript.Text.Quoted
