import Interchange.Trip
import Interchange.Update.Outcome

/-!
# The live timetable

The timetable holds the trips as riders see them now. Realtime feeds change it by mutations:
they cancel, delete or reroute a trip, or add one that is not in the schedule. A mutation is
checked completely before anything changes, so one that fails leaves no trace.

Feeds may refer to a trip by its id or by the id that it has in realtime data.
-/

namespace Interchange

/-- A change to the live timetable. -/
inductive Mutation where
  /-- The trip does not run; riders still see it -/
  | cancel (trip : ScopedId)
  /-- The trip disappears from what riders see -/
  | delete (trip : ScopedId)
  /-- The trip gets new calls -/
  | reroute (trip : ScopedId) (calls : List Call)
  /-- A trip that is not in the schedule -/
  | addTrip (trip : Trip) (calls : List Call)
deriving DecidableEq

/-- The trip that a mutation is about. -/
def Mutation.trip : Mutation → ScopedId
  | .cancel trip | .delete trip | .reroute trip _ => trip
  | .addTrip trip _ => trip.id

/-- A trip as riders see it now. -/
structure LiveTrip where
  trip : Trip
  calls : List Call
  state : TripState
deriving DecidableEq

/-- The stops at which a trip calls. -/
def LiveTrip.stops (t : LiveTrip) : List StopIndex := t.calls.map Call.stop

/-- The live trips by id, and how many stops there are. -/
structure Timetable where
  trips : SortedMap ScopedId LiveTrip
  stopCount : Nat
  /-- When a batch was last applied with success, in seconds of universal time -/
  updatedAt : Option Int
deriving DecidableEq

/-! ### Checking calls -/

/-- What is wrong with a call by itself. -/
def Call.fault? (c : Call) : Option FailureReason :=
  if c.arrival.seconds < 0 then some .invalidArrivalTime
  else if c.departure.seconds < 0 then some .invalidDepartureTime
  else if c.dwell < 0 then some .negativeDwellTime
  else none

/-- What is wrong with a call that comes after another. -/
def Call.hopFault? (previous c : Call) : Option FailureReason :=
  if c.sequence ≤ previous.sequence then some .invalidStopSequence
  else if c.arrival < previous.departure then some .negativeHopTime
  else none

/-- The first fault among calls that follow `previous`, the first of them at position `n`. -/
def faultAfter? (previous : Call) (n : Nat) : List Call → Option (Nat × FailureReason)
  | [] => none
  | c :: cs =>
    match c.fault? <|> previous.hopFault? c with
    | some reason => some (n, reason)
    | none => faultAfter? c (n + 1) cs

/-- The first fault among the calls of a trip. -/
def callFault? : List Call → Option (Nat × FailureReason)
  | [] => none
  | c :: cs =>
    match c.fault? with
    | some reason => some (0, reason)
    | none => faultAfter? c 1 cs

/-- Checks that calls make sense on their own: there are at least two, times are not negative
and do not run backwards, and sequence numbers increase. -/
def validateCalls (trip : ScopedId) (calls : List Call) : Except UpdateError Unit :=
  match calls with
  | [] => .error (.forTrip trip .noUpdates)
  | [_] => .error (.forTrip trip .tooFewStops)
  | calls =>
    match callFault? calls with
    | some (n, reason) => .error (.atCall trip reason n)
    | none => .ok ()

namespace Timetable

/-! ### Reading the timetable -/

/-- The timetable without trips. -/
def empty (stopCount : Nat) : Timetable := ⟨.empty, stopCount, none⟩

/-- The live trip with an id. -/
def trip? (t : Timetable) (id : ScopedId) : Option LiveTrip := t.trips.find? id

/-- Puts in a live trip under its id, instead of one with the same id. -/
def putTrip (t : Timetable) (live : LiveTrip) : Timetable :=
  { t with trips := t.trips.insert live.trip.id live }

/-- Puts in a scheduled trip, instead of one with the same id. -/
def insertScheduled (t : Timetable) (s : ScheduledTrip) : Timetable :=
  t.putTrip ⟨s.trip, s.calls, .scheduled⟩

/-- The timetable of scheduled trips before any update. -/
def seed (stopCount : Nat) (trips : List ScheduledTrip) : Timetable :=
  trips.foldl insertScheduled (.empty stopCount)

/-- The number of trips in a state. -/
def countIn (t : Timetable) (state : TripState) : Nat :=
  t.trips.values.countP fun live => live.state = state

/-- The states that trips are in, with the number of trips in each. -/
def stateCounts (t : Timetable) : SortedMap TripState Nat :=
  .tally (t.trips.values.map LiveTrip.state)

/-- Whether a realtime feed means this trip by the id. -/
def answersTo (id : ScopedId) (entry : ScopedId × LiveTrip) : Bool :=
  entry.1.feed = id.feed && entry.2.trip.realtimeTripId = some id.localId

/-- The trip that a realtime feed means by an id: the one with that id, or else the first one
whose realtime id it is. -/
def resolve (t : Timetable) (id : ScopedId) : Option ScopedId :=
  if t.trips.contains id then some id
  else (t.trips.entries.find? (answersTo id)).map Prod.fst

/-! ### Mutations

A mutation works on the timetable in place, so every way out of it says which timetable it
leaves behind. -/

/-- Changes the live trip under a key, if there is one. -/
def modifyTrip (t : Timetable) (key : ScopedId) (f : LiveTrip → LiveTrip) : Timetable :=
  { t with trips := t.trips.modify key f }

/-- Puts a trip into a state that takes it out of service. -/
def withdraw (t : Timetable) (id : ScopedId) (state : TripState) : Timetable × Outcome :=
  match t.resolve id with
  | none => (t, .error (.forTrip id .noTripForCancellationFound))
  | some key =>
    match t.trip? key with
    | none => (t, .error (.forTrip id .noTripForCancellationFound))
    | some live =>
      -- deleting a cancelled trip still hides it
      if live.state = state ∨ live.state = .deleted then (t, .ok [.noOpCancellation])
      else (t.modifyTrip key fun l => { l with state }, .ok [])

/-- Gives a trip new calls. -/
def reroute (t : Timetable) (id : ScopedId) (calls : List Call) : Timetable × Outcome :=
  match t.resolve id with
  | none => (t, .error (.forTrip id .tripNotFound))
  | some key =>
    match calls.findIdx? fun c => t.stopCount ≤ c.stop with
    | some n => (t, .error (.atCall key .unknownStop n))
    | none =>
      match validateCalls key calls with
      | .error e => (t, .error e)
      | .ok () =>
        match t.trip? key with
        | none => (t, .error (.forTrip key .tripNotFound))
        | some live =>
          let state := if live.stops = calls.map Call.stop then .updated else .modified
          (t.modifyTrip key fun l => { l with calls, state }, .ok [])

/-- The calls at stops that there are. -/
def knownCalls (t : Timetable) (calls : List Call) : List Call :=
  calls.filter fun c => c.stop < t.stopCount

/-- Adds a trip, without its calls at unknown stops. -/
def addTrip (t : Timetable) (trip : Trip) (calls : List Call) : Timetable × Outcome :=
  if t.trips.contains trip.id then (t, .error (.forTrip trip.id .tripAlreadyExists))
  else
    let known := t.knownCalls calls
    if !calls.isEmpty && known.isEmpty then (t, .error (.forTrip trip.id .noValidStops))
    else
      match validateCalls trip.id known with
      | .error e => (t, .error e)
      | .ok () =>
        let warnings :=
          if known.length < calls.length then [.unknownStopsRemovedFromAddedTrip] else []
        (t.putTrip ⟨trip, known, .added⟩, .ok warnings)

/-- Applies a mutation. -/
def apply (t : Timetable) : Mutation → Timetable × Outcome
  | .cancel id => t.withdraw id .canceled
  | .delete id => t.withdraw id .deleted
  | .reroute id calls => t.reroute id calls
  | .addTrip trip calls => t.addTrip trip calls

/-! ### Batches -/

/-- Applies mutations one after the other. -/
def applyAll (t : Timetable) : List Mutation → Timetable × List Outcome
  | [] => (t, [])
  | m :: ms =>
    let (t', outcome) := t.apply m
    let (t'', outcomes) := t'.applyAll ms
    (t'', outcome :: outcomes)

/-- Applies a batch at a moment. A failing mutation does not stop the others, and the moment
is noted if any succeeds. -/
def applyBatch (t : Timetable) (batch : List Mutation) (moment : Int) : Timetable × BatchResult :=
  let (t', outcomes) := t.applyAll batch
  let result := BatchResult.ofOutcomes outcomes
  (if 0 < result.successful then { t' with updatedAt := some moment } else t', result)

end Timetable

end Interchange
