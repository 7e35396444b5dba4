import Interchange.Network.Description
import Interchange.Settings
import Interchange.Update.Timetable

/-!
# Building networks

`Network.build` turns a description into a network at a moment: it joins the stops by the
transfer graph, picks the versions of the trips that are active, and indexes the connections.
On the way it checks, in this order, that there are no more lists of footpaths than stops,
that every footpath leads to a stop, that every active trip calls at stops, and that every
rule is in range.
-/

namespace Interchange

/-- A network that is ready for queries. -/
structure Network where
  stops : List Stop
  graph : TransferGraph
  connections : ConnectionIndex
  /-- The active trips, in the order of their ids -/
  trips : List ScheduledTrip
  builtAt : DateTime

/-- Why a description makes no network. -/
inductive NetworkError where
  | footpathLists (e : FootpathListsError)
  | graph (e : TransferGraphError)
  /-- A trip calls at a stop that there is not -/
  | unknownStop (trip : ScopedId) (stop : StopIndex) (stopCount : Nat)
  /-- The rule of a connection is out of range -/
  | invalidRule (source : TripPosition) (e : RuleError)
deriving DecidableEq

/-- The wording of a refusal. -/
def NetworkError.message : NetworkError → String
  | .footpathLists e => e.message
  | .graph e => e.message
  | .unknownStop trip stop stopCount =>
    s!"trip {trip.text} calls at stop {stop}, but the network has {stopCount} stops"
  | .invalidRule source e =>
    s!"constrained transfer from {source.trip.text} at position {source.position}: " ++ e.message

/-- Checks that trips call at stops of the network. -/
def checkCalls (stopCount : Nat) : List ScheduledTrip → Except NetworkError Unit
  | [] => .ok ()
  | s :: rest =>
    match s.calls.find? fun c => stopCount ≤ c.stop with
    | some c => .error (.unknownStop s.trip.id c.stop stopCount)
    | none => checkCalls stopCount rest

/-- Checks that the rules of connections are in range. -/
def checkRules : List Connection → Except NetworkError Unit
  | [] => .ok ()
  | c :: rest =>
    match c.rule.validate with
    | .error e => .error (.invalidRule c.source e)
    | .ok () => checkRules rest

/-- What a network has, in numbers. -/
structure NetworkSummary where
  stops : Nat
  edges : Nat
  connections : Nat
  forbidden : Nat
  trips : Nat
  builtAt : DateTime
deriving DecidableEq

namespace Network

/-- The network that a description makes at a moment. -/
def build (d : Description) (settings : Settings) (moment : DateTime) :
    Except NetworkError Network := do
  let footpaths ← d.footpathsByStop.mapError .footpathLists
  let graph ← (TransferGraph.build footpaths settings.walk.cost settings.transfers).mapError .graph
  let trips := d.activeTrips moment
  checkCalls d.stops.length trips
  checkRules d.connections
  return ⟨d.stops, graph, .ofList d.connections, trips, moment⟩

/-- The stop of an index. -/
def stop? (n : Network) (i : StopIndex) : Option Stop := n.stops[i]?

/-- The boarding of a rider who leaves a trip at `alight`. Connections that are not
facilitated have to leave the usual time to change. -/
def boarding (n : Network) (source : TripPosition) (alight : ServiceTime) (settings : Settings) :
    Option Boarding :=
  n.connections.findBoarding source alight (settings.earliestBoarding alight)

/-- The live timetable before any update. -/
def timetable (n : Network) : Timetable := .seed n.stops.length n.trips

/-- The network in numbers. -/
def summary (n : Network) : NetworkSummary :=
  ⟨n.stops.length, n.graph.edgeCount, n.connections.size, n.connections.forbidden,
    n.trips.length, n.builtAt⟩

end Network

end Interchange
