import MapScript.Event

/-!
# The recording host

A host that keeps every event in order and answers the questions of scripts from fixed tables.
-/

namespace MapScript

inductive GameType where
  | single | cooperative | deathmatch
deriving DecidableEq, Repr

namespace GameType

def toInt32 : GameType → Int32
  | single => 0
  | cooperative => 1
  | deathmatch => 2

end GameType

structure Host where
  /-- The events so far, oldest first. -/
  events : Array HostEvent := #[]
  busyTags : List Int32 := []
  busyPolys : List Int32 := []
  /-- Counts by thing type and identifier. -/
  thingCounts : List ((Int32 × Int32) × Int32) := []
  players : Int32 := 0
  gameType : GameType := .single
  skill : Int32 := 0
  levelTime : Int32 := 0
deriving DecidableEq, Repr

namespace Host

/-- A host with nothing in it. -/
def blank : Host := {}

/-- A game of one player at medium skill. -/
def new : Host := { players := 1, skill := 2 }

def record (h : Host) (e : HostEvent) : Host := { h with events := h.events.push e }

/-- Forgets the events. -/
def drain (h : Host) : Host := { h with events := #[] }

/-- The messages among the events. -/
def prints (h : Host) : List String := h.events.toList.filterMap HostEvent.printed?

/-- A set with an element put in or taken out. -/
def mark (set : List Int32) (x : Int32) (present : Bool) : List Int32 :=
  let rest := set.filter (· ≠ x)
  if present then x :: rest else rest

def setTagBusy (h : Host) (tag : Int32) (busy : Bool) : Host :=
  { h with busyTags := mark h.busyTags tag busy }

def setPolyBusy (h : Host) (poly : Int32) (busy : Bool) : Host :=
  { h with busyPolys := mark h.busyPolys poly busy }

def setThingCount (h : Host) (thingType tid count : Int32) : Host :=
  { h with thingCounts :=
      ((thingType, tid), count) :: h.thingCounts.filter (·.1 ≠ (thingType, tid)) }

def setGame (h : Host) (players : Int32) (gameType : GameType) (skill : Int32) : Host :=
  { h with players, gameType, skill }

/-- One tick of the level clock, which stops at its greatest value. -/
def advance (h : Host) : Host :=
  { h with levelTime := if h.levelTime = Int32.maxValue then h.levelTime else h.levelTime + 1 }

def tagBusy (h : Host) (tag : Int32) : Bool := h.busyTags.contains tag

def polyBusy (h : Host) (poly : Int32) : Bool := h.busyPolys.contains poly

def thingCount (h : Host) (thingType tid : Int32) : Int32 :=
  (h.thingCounts.lookup (thingType, tid)).getD 0

@[simp] theorem events_record (h : Host) (e : HostEvent) :
    (h.record e).events = h.events.push e := rfl

end Host

end MapScript
