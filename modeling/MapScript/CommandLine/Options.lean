/-!
# Options

The words of a command line sorted into flags, options with a value and positional words. An option
is written `--name value` or `--name=value`; two dashes alone end the options.
-/

namespace MapScript.CommandLine

/-- What an option takes. -/
inductive Arity where
  /-- No value, and at most once. -/
  | flag
  /-- A value, at most once. -/
  | single
  /-- A value, any number of times. -/
  | repeated
deriving DecidableEq, Repr

/-- The options a command knows. -/
abbrev OptionTable := List (String × Arity)

/-- The words of a command line by their role, in order. -/
structure Words where
  flags : List String := []
  values : List (String × String) := []
  positional : List String := []
deriving DecidableEq, Repr

/-- Whether a word looks like an option. -/
def isOption (word : String) : Bool :=
  match word.toList with
  | '-' :: _ :: _ => true
  | _ => false

/-- The name of a word that starts with two dashes, and the value after its equals sign. -/
def longOption? (word : String) : Option (String × Option String) :=
  match word.toList with
  | '-' :: '-' :: cs =>
    let name := String.ofList (cs.takeWhile (· ≠ '='))
    match cs.dropWhile (· ≠ '=') with
    | [] => some (name, none)
    | _ :: value => some (name, some (String.ofList value))
  | _ => none

/-- Sorts the words of a command line. -/
def sort? (table : OptionTable) : List String → Option Words
  | [] => some {}
  | word :: rest =>
    if word = "--" then some { positional := rest }
    else match longOption? word with
      | some (name, value?) =>
        match table.lookup name, value? with
        | none, _ => none
        | some .flag, some _ => none
        | some .flag, none => do
          let ws ← sort? table rest
          return { ws with flags := name :: ws.flags }
        | some _, some value => do
          let ws ← sort? table rest
          return { ws with values := (name, value) :: ws.values }
        | some _, none =>
          match rest with
          | [] => none
          | value :: rest =>
            if isOption value then none
            else do
              let ws ← sort? table rest
              return { ws with values := (name, value) :: ws.values }
      | none =>
        if isOption word then none
        else do
          let ws ← sort? table rest
          return { ws with positional := word :: ws.positional }

/-- Whether every option that may stand once does. -/
def Words.wellUsed (table : OptionTable) (ws : Words) : Bool :=
  table.all fun (name, arity) =>
    match arity with
    | .flag => ws.flags.count name ≤ 1
    | .single => (ws.values.countP (·.1 = name)) ≤ 1
    | .repeated => true

/-- The words of a well-used command line. -/
def words? (table : OptionTable) (args : List String) : Option Words := do
  let ws ← sort? table args
  if ws.wellUsed table then some ws else none

namespace Words

/-- A path, which is never empty. -/
def path? (word : String) : Option String := if word.isEmpty then none else some word

/-- The only positional word, a path. -/
def onlyPath? (ws : Words) : Option String :=
  match ws.positional with
  | [word] => path? word
  | _ => none

/-- The value of an option, read; `none` inside where it is not given. -/
def value? (ws : Words) (name : String) (read : String → Option α) : Option (Option α) :=
  match ws.values.lookup name with
  | none => some none
  | some text => some <$> read text

/-- All values of an option, in order. -/
def all (ws : Words) (name : String) : List String :=
  (ws.values.filter (·.1 = name)).map (·.2)

end Words

end MapScript.CommandLine
