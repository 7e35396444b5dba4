import Interchange.Connection.Index
import Interchange.Network.Proximity
import Interchange.Transfer.Footpath
import Interchange.Trip
import Interchange.Version.Active

/-!
# Network descriptions

A `Description` holds everything that a network is built from. Its lists of footpaths belong
to its stops in order; stops beyond the last list have none of their own. If it names a
walking distance, every two stops within that distance get a flat footpath each way.
-/

namespace Interchange

/-- What a network is built from. -/
structure Description where
  stops : List Stop := []
  /-- The footpaths that leave each of the first stops -/
  footpaths : List (List Footpath) := []
  /-- Stops at most so many meters apart are joined by footpaths -/
  maxWalk : Option Float := none
  connections : List Connection := []
  trips : List (Versioned ScheduledTrip) := []

/-- More lists of footpaths than stops. -/
structure FootpathListsError where
  lists : Nat
  stops : Nat
deriving DecidableEq, Repr

/-- The wording of a refusal. -/
def FootpathListsError.message (e : FootpathListsError) : String :=
  s!"{e.lists} transfer lists for {e.stops} stops"

/-- Adds the flat footpaths of a near pair to the lists of both stops. -/
def addNearPair (lists : List (List Footpath)) (pair : NearPair Float) : List (List Footpath) :=
  (lists.modify pair.first (· ++ [.flat pair.second pair.distance])).modify pair.second
    (· ++ [.flat pair.first pair.distance])

namespace Description

/-- The described footpaths of every stop. -/
def describedFootpaths (d : Description) : List (List Footpath) :=
  d.footpaths ++ List.replicate (d.stops.length - d.footpaths.length) []

/-- The pairs of stops that are joined because they are near each other. -/
def nearStops (d : Description) : List (NearPair Float) :=
  match d.maxWalk with
  | none => []
  | some meters => (stopSweep meters).nearPairs d.stops

/-- All footpaths of every stop: the described ones, then those to stops nearby. -/
def footpathsByStop (d : Description) : Except FootpathListsError (List (List Footpath)) :=
  if d.stops.length < d.footpaths.length then .error ⟨d.footpaths.length, d.stops.length⟩
  else .ok (d.nearStops.foldl addNearPair d.describedFootpaths)

/-- The versions of trips that are active at a moment, in the order of their ids. -/
def activeTrips (d : Description) (moment : DateTime) : List ScheduledTrip :=
  (activeSet (fun e => e.value.trip.id) d.trips moment).values.map Versioned.value

end Description

end Interchange
