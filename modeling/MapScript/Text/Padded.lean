/-!
# Columns

Text padded with spaces to a least width.
-/

namespace MapScript.Text

/-- The text at the left of a column of `width` characters. -/
def padRight (width : Nat) (s : String) : String :=
  s ++ String.ofList (List.replicate (width - s.length) ' ')

/-- The text at the right of a column of `width` characters. -/
def padLeft (width : Nat) (s : String) : String :=
  String.ofList (List.replicate (width - s.length) ' ') ++ s

end MapScript.Text
