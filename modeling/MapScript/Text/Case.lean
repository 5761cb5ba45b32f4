/-!
# Letter case

Names in capitals at word starts, written with underscores between lower-case words.
-/

namespace MapScript.Text

/-- Puts an underscore before each capital. -/
def underscored : List Char → List Char
  | [] => []
  | c :: cs => if c.isUpper then '_' :: c.toLower :: underscored cs else c :: underscored cs

/-- `PushNumber` as `push_number`: lower-case words, joined by underscores. -/
def snakeCase (name : String) : String :=
  match name.toList with
  | [] => ""
  | c :: cs => String.ofList (c.toLower :: underscored cs)

end MapScript.Text
