import Interchange.Connection.Rule
import Interchange.ScopedId
import Interchange.ServiceTime
import Interchange.SortedMap

/-!
# Connections between trips

A `Connection` leads from a trip at one of its stops to another trip, under a rule. The index
groups the connections by where they leave; forbidden ones are only counted. Among the
connections that a rider can make, the one whose target leaves first is boarded, and of
several that leave at the same time the one registered first.
-/

namespace Interchange

/-- A stop of a trip, by its position among the trip's calls. -/
structure TripPosition where
  trip : ScopedId
  position : Nat
deriving DecidableEq

/-! ### Connections -/

/-- A transfer between two trips, under a rule. -/
structure Connection where
  source : TripPosition
  target : TripPosition
  /-- The index of the target trip in the timetable of its pattern -/
  targetTripIndex : Nat
  /-- When the target leaves -/
  targetTime : ServiceTime
  rule : ConnectionRule
deriving DecidableEq

namespace Connection

/-- The earliest departure that a rider who alights at `alight` can board: the time of
alighting itself if the connection is facilitated, and otherwise `earliest` or, if the rule
asks for more, its own time to change. -/
def requiredTime (c : Connection) (alight earliest : ServiceTime) : ServiceTime :=
  if c.rule.isFacilitated then alight
  else match c.rule.minTransferTime with
    | some n => earliest.latest (alight.add n)
    | none => earliest

/-- Whether a rider who alights at `alight` can board. -/
def canBoard (c : Connection) (alight earliest : ServiceTime) : Bool :=
  c.requiredTime alight earliest ≤ c.targetTime &&
    match c.rule.maxWaitTime with
    | some n => c.targetTime.since alight ≤ n
    | none => true

end Connection

/-- The decision to board the target of a connection. -/
structure Boarding where
  connection : Connection
  /-- The earliest departure that was asked for; a facilitated connection may leave before -/
  earliest : ServiceTime
deriving DecidableEq

namespace Boarding

def trip (b : Boarding) : ScopedId := b.connection.target.trip
def tripIndex (b : Boarding) : Nat := b.connection.targetTripIndex
def position (b : Boarding) : Nat := b.connection.target.position
def time (b : Boarding) : ServiceTime := b.connection.targetTime
def rule (b : Boarding) : ConnectionRule := b.connection.rule
def isFacilitated (b : Boarding) : Bool := b.rule.isFacilitated

/-- A boarding in words. -/
def text (b : Boarding) : String :=
  s!"board {b.trip.text} at pos {b.position} {b.time.text} (earliest {b.earliest.text}" ++
    (if b.isFacilitated then ", facilitated)" else ")")

end Boarding

/-! ### The index -/

/-- Connections by the trip that they leave, and for each trip by the position. -/
structure ConnectionIndex where
  bySource : SortedMap ScopedId (SortedMap Nat (List Connection))
  /-- The number of connections in the index -/
  size : Nat
  /-- The number of forbidden connections left out -/
  forbidden : Nat
deriving DecidableEq

namespace ConnectionIndex

/-- The index without connections. -/
def empty : ConnectionIndex := ⟨.empty, 0, 0⟩

/-- Registers a connection; a forbidden one is only counted. -/
def add (index : ConnectionIndex) (c : Connection) : ConnectionIndex :=
  if c.rule.isNotAllowed then { index with forbidden := index.forbidden + 1 }
  else
    { index with
      bySource := index.bySource.upsert c.source.trip .empty
        (·.upsert c.source.position [] (· ++ [c]))
      size := index.size + 1 }

/-- Registers connections in the order given. -/
def ofList (cs : List Connection) : ConnectionIndex := cs.foldl add empty

/-- The connections that leave a trip at a position, in the order of registration. -/
def lookup (index : ConnectionIndex) (source : TripPosition) : List Connection :=
  ((index.bySource.find? source.trip).bind (·.find? source.position)).getD []

/-- Whether the index holds no connections. -/
def isEmpty (index : ConnectionIndex) : Bool := index.size = 0

/-- Of two connections the one that leaves first; the earlier one of two at the same time. -/
def sooner (best : Option Connection) (c : Connection) : Option Connection :=
  match best with
  | none => some c
  | some b => if c.targetTime < b.targetTime then some c else some b

/-- The boarding of a rider who alights at `alight` and by default may leave at `earliest`. -/
def findBoarding (index : ConnectionIndex) (source : TripPosition)
    (alight earliest : ServiceTime) : Option Boarding :=
  ((index.lookup source).foldl (fun best c =>
    if c.canBoard alight earliest then sooner best c else best) none).map (⟨·, earliest⟩)

end ConnectionIndex

end Interchange
