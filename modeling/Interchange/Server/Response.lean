import Interchange.Calendar.UnixTime
import Interchange.Wire.Network
import Interchange.Wire.Update

/-!
# Responses

What the server answers: a status and a body. A request that asks for something well formed
and impossible is answered by a `Failure` with its reason as JSON; one that cannot be
understood at all is turned away by a `Refusal`.
-/

namespace Interchange

open Json

/-- The body of a response. -/
inductive Body where
  | empty
  | text (s : String)
  | json (v : Value)

/-- An answer of the server. -/
structure Response where
  status : Nat
  body : Body

/-! ### Refusals -/

/-- Why a request is turned away before it is looked into. -/
inductive Refusal where
  /-- No resource has this path -/
  | unknownPath
  /-- The resource does not have this method -/
  | wrongMethod
  /-- A parameter in the path or the query is missing or cannot be read -/
  | badParameter
  /-- The body is not said to be JSON -/
  | wrongMediaType
  /-- The body has more bytes than are read -/
  | tooLarge
  /-- The body is not JSON -/
  | malformedBody
  /-- The body is JSON of another form -/
  | unacceptableBody
deriving DecidableEq, Repr

namespace Refusal

/-- The status of a refusal. -/
def status : Refusal → Nat
  | .unknownPath => 404
  | .wrongMethod => 405
  | .badParameter | .malformedBody => 400
  | .tooLarge => 413
  | .wrongMediaType => 415
  | .unacceptableBody => 422

/-- The body of a refusal. -/
def body : Refusal → Body
  | .unknownPath | .wrongMethod => .empty
  | .badParameter => .text "bad parameter"
  | .wrongMediaType => .text "the body has to be JSON"
  | .tooLarge => .text "the body is too large"
  | .malformedBody => .text "the body is not JSON"
  | .unacceptableBody => .text "the body has not the form asked for"

def response (r : Refusal) : Response := ⟨r.status, r.body⟩

end Refusal

/-! ### Failures -/

/-- Why a request that was understood fails. -/
inductive Failure where
  | unknownStop (index : StopIndex)
  | invalidTripId (text : String) (e : ScopedIdError)
  | unknownTrip (id : ScopedId)
  | noBoarding (source : TripPosition) (alight : ServiceTime)
  | noUpdateYet
  | network (e : NetworkError)
  /-- Nobody handles updates any more -/
  | dispatcherStopped
deriving DecidableEq

namespace Failure

/-- The status of a failure. -/
def status : Failure → Nat
  | .invalidTripId _ _ | .network _ => 400
  | .unknownStop _ | .unknownTrip _ | .noBoarding _ _ | .noUpdateYet => 404
  | .dispatcherStopped => 500

/-- The wording of a failure. -/
def message : Failure → String
  | .unknownStop index => s!"Unknown stop index: {index}"
  | .invalidTripId text e => s!"Invalid trip id {text}: " ++ e.message
  | .unknownTrip id => s!"Unknown trip: {id.text}"
  | .noBoarding source alight =>
    s!"No constrained transfer from {source.trip.text} at position {source.position} after " ++
      alight.text
  | .noUpdateYet => "No realtime update applied yet"
  | .network e => e.message
  | .dispatcherStopped => "update manager has stopped"

def response (f : Failure) : Response :=
  ⟨f.status, .json (.object [("error", .string f.message)])⟩

end Failure

/-! ### Answers -/

/-- The transfers at a stop in one direction, each with the name of the stop at its far end. -/
structure StopTransfers where
  index : StopIndex
  stop : Stop
  direction : SearchDirection
  edges : List (Edge × Option String)

def StopTransfers.toJson (t : StopTransfers) : Value :=
  .object [("stop", .count t.index), ("stop_id", t.stop.id.toJson),
    ("stop_name", .string t.stop.name), ("direction", t.direction.toJson),
    ("edges", .list (fun (e, name) =>
      .object [("stop", .count e.stop), ("stop_name", .nullable .string name),
        ("duration_secs", .count e.duration), ("c1", .integer e.cost),
        ("reversed", .bool e.reversed)]) t.edges)]

def Boarding.toJson (b : Boarding) : Value :=
  .object [("trip", b.trip.toJson), ("trip_index", .count b.tripIndex),
    ("stop_pos", .count b.position), ("time", b.time.toJson),
    ("earliest_board_time", b.earliest.toJson), ("facilitated", .bool b.isFacilitated),
    ("priority", b.rule.priority.toJson)]

/-- The network and the live timetable in numbers. -/
structure Overview where
  feedId : String
  network : NetworkSummary
  liveTrips : Nat
  stateCounts : SortedMap TripState Nat
  /-- When an update was last applied with success, in Unix time -/
  updatedAt : Option Int

/-- A Unix time, written as a moment of universal time. -/
def unixTimeToJson (seconds : Int) : Value :=
  .nullable (fun t => .string (t.text ++ "Z")) (DateTime.ofUnix? seconds)

def Overview.toJson (o : Overview) : Value :=
  .object [("feed_id", .string o.feedId), ("network", o.network.toJson),
    ("live_trips", .count o.liveTrips), ("trips_by_state", stateCountsToJson o.stateCounts),
    ("timetable_updated_at", .nullable unixTimeToJson o.updatedAt)]

/-- What the server answers when nothing goes wrong. -/
inductive Answer where
  | healthy
  | overview (o : Overview)
  | replaced (summary : NetworkSummary)
  | transfers (t : StopTransfers)
  | trip (t : LiveTrip)
  | boarding (b : Boarding)
  | batch (r : BatchResult)

def Answer.body : Answer → Body
  | .healthy => .text "ok"
  | .overview o => .json o.toJson
  | .replaced summary => .json summary.toJson
  | .transfers t => .json t.toJson
  | .trip t => .json t.toJson
  | .boarding b => .json b.toJson
  | .batch r => .json r.toJson

/-- The response to a request that was understood. -/
def Response.ofAnswer : Except Failure Answer → Response
  | .ok a => ⟨200, a.body⟩
  | .error f => f.response

end Interchange
