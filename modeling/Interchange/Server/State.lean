import Interchange.Network.Published
import Interchange.Server.Command
import Interchange.Update.Dispatcher

/-!
# The server

The server holds the published network and the dispatcher with its live timetable. A request
changes the state in two ways only: a new network replaces the published one and resets the
timetable, and a batch of updates goes to the dispatcher. Commands are carried out one at a
time, each to its end.
-/

namespace Interchange

/-- What the clock shows while a request is handled. -/
structure Clock where
  /-- The date and the time of day where the server stands -/
  wall : DateTime
  /-- Unix time -/
  unix : Int

/-- The state of the server. -/
structure Server where
  settings : Settings
  network : Published Network
  dispatcher : Dispatcher
  /-- Whether the dispatcher still takes requests -/
  dispatching : Bool := true

namespace Server

/-- A server that has just been started with a network. -/
def start (settings : Settings) (network : Network) : Server where
  settings
  network := { current := network }
  dispatcher := .start network.timetable

/-- The live timetable. -/
def timetable (s : Server) : Timetable := s.dispatcher.timetable

/-! ### Reading the state -/

def overview (s : Server) : Overview where
  feedId := s.settings.feedId
  network := s.network.current.summary
  liveTrips := s.timetable.trips.size
  stateCounts := s.timetable.stateCounts
  updatedAt := s.timetable.updatedAt

/-- The transfers at a stop. -/
def stopTransfers (s : Server) (index : StopIndex) (direction : SearchDirection) :
    Except Failure StopTransfers :=
  let network := s.network.current
  match network.stop? index with
  | none => .error (.unknownStop index)
  | some stop =>
    let named := (network.graph.edges index direction).map fun e =>
      (e, (network.stop? e.stop).map Stop.name)
    .ok ⟨index, stop, direction, named⟩

/-- The id of a trip in a request. -/
def tripId (text : String) : Except Failure ScopedId :=
  (ScopedId.parse text).mapError (.invalidTripId text)

/-- A trip as the live timetable has it. -/
def liveTrip (s : Server) (text : String) : Except Failure LiveTrip := do
  let id ← tripId text
  match s.timetable.trip? id with
  | some live => return live
  | none => throw (.unknownTrip id)

/-- The boarding of a rider who leaves a trip. -/
def boarding (s : Server) (text : String) (position : Nat) (alight : ServiceTime) :
    Except Failure Boarding := do
  let source := ⟨← tripId text, position⟩
  match s.network.current.boarding source alight s.settings with
  | some b => return b
  | none => throw (.noBoarding source alight)

/-! ### Changing the state -/

/-- Has the dispatcher do something, if it still runs. -/
def dispatch (s : Server) (f : Dispatcher → Dispatcher × α) : Server × Except Failure α :=
  if s.dispatching then
    let (dispatcher, a) := f s.dispatcher
    ({ s with dispatcher }, .ok a)
  else (s, .error .dispatcherStopped)

/-- Replaces the network and resets the live timetable to the new one. -/
def replaceNetwork (s : Server) (clock : Clock) (d : Description) :
    Server × Except Failure NetworkSummary :=
  match Network.build d s.settings clock.wall with
  | .error e => (s, .error (.network e))
  | .ok network =>
    let s := { s with network := (s.network.replace network).1 }
    s.dispatch fun dispatcher => (dispatcher.reset network.timetable, network.summary)

/-- Applies a batch of updates. -/
def update (s : Server) (clock : Clock) (batch : List Mutation) :
    Server × Except Failure BatchResult :=
  s.dispatch (·.applyBatch batch clock.unix)

/-- Carries out a command. -/
def perform (s : Server) (clock : Clock) : Command → Server × Except Failure Answer
  | .health => (s, .ok .healthy)
  | .summary => (s, .ok (.overview s.overview))
  | .transfers index direction => (s, .transfers <$> s.stopTransfers index direction)
  | .trip id => (s, .trip <$> s.liveTrip id)
  | .boarding id position alight => (s, .boarding <$> s.boarding id position alight)
  | .latestUpdate =>
    (s, match s.dispatcher.latest with
      | some result => .ok (.batch result)
      | none => .error .noUpdateYet)
  | .replaceNetwork d =>
    let (s, summary) := s.replaceNetwork clock d
    (s, .replaced <$> summary)
  | .update batch =>
    let (s, result) := s.update clock batch
    (s, .batch <$> result)

/-- Answers a request with its body, whatever the method. -/
def answer (s : Server) (clock : Clock) (r : Request) : Server × Response :=
  match Command.ofRequest r with
  | .error refusal => (s, refusal.response)
  | .ok command =>
    let (s, answer) := s.perform clock command
    (s, .ofAnswer answer)

/-- Answers a request. -/
def respond (s : Server) (clock : Clock) (r : Request) : Server × Response :=
  let (s, response) := s.answer clock r
  (s, if r.method = .head then { response with body := .empty } else response)

end Server

end Interchange
