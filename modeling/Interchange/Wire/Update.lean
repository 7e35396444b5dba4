import Interchange.Json.Tagged
import Interchange.Update.Timetable
import Interchange.Wire.Schedule

/-!
# JSON forms of updates

A mutation is a record with a tag that says what it does. Outcomes, results and live trips
are only written.
-/

namespace Interchange

open Json

/-! ### Mutations -/

def Mutation.toJson : Mutation → Value
  | .cancel trip => .object [("type", .string "cancel"), ("trip_id", trip.toJson)]
  | .delete trip => .object [("type", .string "delete"), ("trip_id", trip.toJson)]
  | .reroute trip calls =>
    .object [("type", .string "reroute"), ("trip_id", trip.toJson),
      ("stop_times", .list Call.toJson calls)]
  | .addTrip trip calls =>
    .object [("type", .string "add_trip"), ("trip", trip.toJson),
      ("stop_times", .list Call.toJson calls)]

/-- The kinds of mutations by their tags. -/
def Mutation.variants : List (String × Fields Mutation) :=
  [("cancel", Mutation.cancel <$> required "trip_id" ScopedId.ofJson),
    ("delete", Mutation.delete <$> required "trip_id" ScopedId.ofJson),
    ("reroute", Mutation.reroute <$> required "trip_id" ScopedId.ofJson
      <*> required "stop_times" (decodeList Call.ofJson)),
    ("add_trip", Mutation.addTrip <$> required "trip" Trip.ofJson
      <*> required "stop_times" (decodeList Call.ofJson))]

def Mutation.ofJson : Decoder Mutation := decodeTagged "type" Mutation.variants

/-! ### Outcomes -/

def Warning.toJson (w : Warning) : Value := .string w.name

/-- The warnings of a success. -/
def successToJson (warnings : List Warning) : Value :=
  .object [("warnings", .list Warning.toJson warnings)]

def UpdateError.toJson (e : UpdateError) : Value :=
  .object [("trip_id", .nullable ScopedId.toJson e.trip), ("error_type", .string e.reason.name),
    ("stop_index", .nullable .count e.position)]

def BatchResult.toJson (r : BatchResult) : Value :=
  .object [("successful", .count r.successful), ("failed", .count r.failed),
    ("failures", .object (r.failures.entries.map fun (reason, errors) =>
      (reason.name, .list UpdateError.toJson errors))),
    ("warnings", .list Warning.toJson r.warnings),
    ("successes", .list successToJson r.successes),
    ("errors", .list UpdateError.toJson r.errors)]

/-! ### The live timetable -/

def LiveTrip.toJson (t : LiveTrip) : Value :=
  .object [("trip", t.trip.toJson), ("stop_times", .list Call.toJson t.calls),
    ("state", t.state.toJson)]

/-- The numbers of trips by their states. -/
def stateCountsToJson (counts : SortedMap TripState Nat) : Value :=
  .object (counts.entries.map fun (state, n) => (state.name, .count n))

end Interchange
