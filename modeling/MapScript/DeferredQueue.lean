import MapScript.Request

/-!
# Deferred queues

The actions that wait for their map to be loaded, in the order they arrived. A start of a script on
a map waits at most once.
-/

namespace MapScript

structure DeferredQueue where
  actions : List DeferredAction
deriving DecidableEq, Repr

namespace DeferredQueue

def empty : DeferredQueue := ⟨[]⟩

def isEmpty (q : DeferredQueue) : Bool := q.actions.isEmpty

def size (q : DeferredQueue) : Nat := q.actions.length

/-- Whether a start of the script on the map is waiting. -/
def hasStart (q : DeferredQueue) (script map : Int32) : Bool :=
  q.actions.any fun a => a.kind = .execute ∧ a.script = script ∧ a.map = map

/-- Whether an action is a start that already waits. -/
def refuses (q : DeferredQueue) (action : DeferredAction) : Bool :=
  action.kind = .execute && q.hasStart action.script action.map

/-- Adds an action at the end unless it is refused. -/
def enqueue (q : DeferredQueue) (action : DeferredAction) : DeferredQueue :=
  if q.refuses action then q else ⟨q.actions ++ [action]⟩

/-- What is reported when an action is added. -/
def enqueueNotices (q : DeferredQueue) (action : DeferredAction) : Journal :=
  if q.refuses action then #[.alreadyQueued action.script action.map] else #[]

/-- The actions for a map, in order. -/
def forMap (q : DeferredQueue) (map : Int32) : List DeferredAction :=
  q.actions.filter (·.map = map)

/-- What is left when the actions for a map are taken out. -/
def without (q : DeferredQueue) (map : Int32) : DeferredQueue :=
  ⟨q.actions.filter (·.map ≠ map)⟩

def toJson (q : DeferredQueue) : Json := .list DeferredAction.toJson q.actions

def ofJson? (j : Json) : Option DeferredQueue := return ⟨← j.list? DeferredAction.ofJson?⟩

end DeferredQueue

end MapScript
