import Interchange.ScopedId
import Interchange.ServiceTime
import Interchange.Stop

/-!
# Trips and their calls

A trip calls at stops; a `Call` is one of them, with its place in the feed's sequence. A
`CallKey` refers to a call by trip and sequence number and has a text of its own, which is
again a feed-scoped id.
-/

namespace Interchange

/-! ### Trips -/

/-- A scheduled trip. -/
structure Trip where
  id : ScopedId
  routeId : ScopedId
  /-- The id that realtime feeds use, if they use another one -/
  realtimeTripId : Option String := none
  longName : Option String := none
deriving DecidableEq

/-- The id, inside the feed, by which realtime feeds refer to the trip. -/
def Trip.realtimeId (t : Trip) : String := t.realtimeTripId.getD t.id.localId

/-- One call of a trip at a stop. -/
structure Call where
  stop : StopIndex
  /-- The feed's sequence number, which increases along the trip -/
  sequence : Nat
  arrival : ServiceTime
  departure : ServiceTime
deriving DecidableEq

/-- The seconds spent at the stop. -/
def Call.dwell (c : Call) : Int := c.departure.since c.arrival

/-- A trip with its scheduled calls. -/
structure ScheduledTrip where
  trip : Trip
  calls : List Call
deriving DecidableEq

/-! ### References to calls -/

/-- A reference to one call of a trip. -/
structure CallKey where
  trip : ScopedId
  sequence : Nat
deriving DecidableEq

namespace CallKey

/-- What a key adds to the id of its trip. -/
def suffix (sequence : Nat) : String := "_#" ++ Decimal.text sequence

/-- The text of a key. -/
def text (k : CallKey) : String := k.trip.text ++ suffix k.sequence

/-- The key as a feed-scoped id. -/
def asId (k : CallKey) : Except ScopedIdError ScopedId :=
  ScopedId.make k.trip.feed (k.trip.localId ++ suffix k.sequence)

/-- Keys are ordered by trip, then by sequence number. -/
instance : Ord CallKey := ⟨compareLex (compareOn CallKey.trip) (compareOn CallKey.sequence)⟩

end CallKey

/-! ### Realtime state -/

/-- How realtime updates have changed a trip. -/
inductive TripState where
  /-- No update has been applied -/
  | scheduled
  /-- New times at the same stops -/
  | updated
  /-- Does not run -/
  | canceled
  /-- Not in the schedule -/
  | added
  /-- Calls at other stops -/
  | modified
  /-- Hidden from riders -/
  | deleted
deriving DecidableEq, Repr

namespace TripState

/-- All states, in their order. -/
def all : List TripState := [.scheduled, .updated, .canceled, .added, .modified, .deleted]

/-- The name of a state. -/
def name : TripState → String
  | .scheduled => "SCHEDULED"
  | .updated => "UPDATED"
  | .canceled => "CANCELED"
  | .added => "ADDED"
  | .modified => "MODIFIED"
  | .deleted => "DELETED"

/-- Whether riders can board a trip in this state. -/
def isBoardable : TripState → Bool
  | .canceled | .deleted => false
  | _ => true

/-- The place of a state in `all`. -/
def rank : TripState → Nat
  | .scheduled => 0
  | .updated => 1
  | .canceled => 2
  | .added => 3
  | .modified => 4
  | .deleted => 5

instance : Inhabited TripState := ⟨.scheduled⟩

instance : Ord TripState := ⟨compareOn rank⟩

instance : Std.TransOrd TripState := inferInstanceAs (Std.TransCmp (compareOn rank))

instance : Std.LawfulEqOrd TripState where
  compare_self := @Std.ReflCmp.compare_self TripState compare _
  eq_of_compare {a b} h := by
    have h : a.rank = b.rank := @Std.LawfulEqCmp.eq_of_compare Nat compare _ _ _ h
    cases a <;> cases b <;> simp_all [rank]

end TripState

end Interchange
