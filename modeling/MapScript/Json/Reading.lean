import MapScript.Json.Basic

/-!
# Typed reading

How a JSON value is read as a number, an enumeration, a structure or a tagged union. A structure
may be an object with its fields in any order or an array of all its fields in order; unknown
members are ignored and a repeated known member is refused.
-/

namespace MapScript.Json

/-- An integer between `low` and `high`. -/
def within? (low high : Int) : Json → Option Int
  | .int n => if low ≤ n ∧ n ≤ high then some n else none
  | _ => none

def int32? (j : Json) : Option Int32 :=
  (j.within? (-2147483648) 2147483647).map Int32.ofInt

def uint32? (j : Json) : Option UInt32 :=
  (j.within? 0 4294967295).map fun n => UInt32.ofNat n.toNat

def uint64? (j : Json) : Option UInt64 :=
  (j.within? 0 18446744073709551615).map fun n => UInt64.ofNat n.toNat

/-- A count or position that a 64-bit machine can address. -/
def size? (j : Json) : Option Nat :=
  (j.within? 0 18446744073709551615).map Int.toNat

def bool? : Json → Option Bool
  | .bool b => some b
  | _ => none

def text? : Json → Option String
  | .str s => s.text
  | _ => none

def items? : Json → Option (List Json)
  | .arr vs => some vs
  | _ => none

def list? (read : Json → Option α) (j : Json) : Option (List α) := do
  (← j.items?).mapM read

/-- An array of exactly `n` items. -/
def vector? (n : Nat) (read : Json → Option α) (j : Json) : Option (Vector α n) := do
  let vs ← j.list? read
  if h : vs.toArray.size = n then some ⟨vs.toArray, h⟩ else none

/-- A value or `null`. -/
def nullable? (read : Json → Option α) : Json → Option (Option α)
  | .null => some none
  | j => some <$> read j

/-! ## Objects -/

/-- The members of an object under their names. -/
def members? : Json → Option (List (String × Json))
  | .obj ms => ms.mapM fun (name, v) => name.text.map (·, v)
  | _ => none

/-- Whether a name stands at most once among the members. -/
def atMostOnce (ms : List (String × Json)) (name : String) : Bool :=
  ms.countP (·.1 == name) ≤ 1

/-- The fields of a structure, from an object or from an array of all of them. -/
def fields? (names : List String) : Json → Option (List (String × Json))
  | .arr vs => if vs.length = names.length then some (names.zip vs) else none
  | j => do
    let ms ← j.members?
    if names.all (atMostOnce ms) then some ms else none

/-- The fields of a structure of which every field may be left out; an array may stop early. -/
def optionalFields? (names : List String) : Json → Option (List (String × Json))
  | .arr vs => if vs.length ≤ names.length then some (names.zip vs) else none
  | j => fields? names j

/-- A field that must be present. -/
def required? (name : String) (read : Json → Option α) (ms : List (String × Json)) : Option α := do
  read (← ms.lookup name)

/-- A field that may be left out or `null`. -/
def optional? (name : String) (read : Json → Option α) (ms : List (String × Json)) :
    Option (Option α) :=
  match ms.lookup name with
  | none => some none
  | some v => v.nullable? read

/-- A field that takes a default value when it is left out. -/
def defaulting? (name : String) (read : Json → Option α) (otherwise : α)
    (ms : List (String × Json)) : Option α :=
  match ms.lookup name with
  | none => some otherwise
  | some v => read v

/-! ## Choices -/

/-- Where a value is read from. A store knows less of how its values were written than a document,
and is more liberal with choices. -/
inductive Source where
  | document
  | store
deriving DecidableEq, Repr

/-- Whether a value stands for no content: `null`, and in a store also the empty object. -/
def isNothing : Source → Json → Bool
  | _, .null => true
  | .store, .obj [] => true
  | _, _ => false

/-- The name of a choice without content: a string, or an object with that one name and nothing. -/
def choice? (source : Source) : Json → Option String
  | .str s => s.text
  | .obj [(name, v)] => if isNothing source v then name.text else none
  | _ => none

/-- A choice among named values. -/
def oneOf? (source : Source) (table : List (String × α)) (j : Json) : Option α := do
  table.lookup (← j.choice? source)

/-- The name of a choice that stands in an array before its content: a string, and in a store also
its place among the names. -/
def leading? (source : Source) (names : List String) : Json → Option String
  | .str s => s.text
  | .int n => if source = .store ∧ 0 ≤ n then names[n.toNat]? else none
  | _ => none

/-- A choice with its content in a second field. The content is `none` where it is left out. -/
def adjacent? (source : Source) (names : List String) (tag content : String) :
    Json → Option (String × Option Json)
  | .arr [t, c] => do return (← t.leading? source names, some c)
  | j => do
    let ms ← j.members?
    if atMostOnce ms tag && atMostOnce ms content then
      return (← (← ms.lookup tag).choice? source, ms.lookup content)
    else none

/-- A choice whose fields stand beside its tag: the tag and all the fields, or the array of them. -/
def internal? (tag : String) : Json → Option (String × Json)
  | .arr (t :: vs) => do return (← t.text?, .arr vs)
  | j => do
    let ms ← j.members?
    if atMostOnce ms tag then
      return (← (← ms.lookup tag).text?, .record (ms.filter (·.1 != tag)))
    else none

end MapScript.Json
