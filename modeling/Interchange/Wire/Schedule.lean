import Interchange.Calendar.DateTime
import Interchange.Json.Decoder
import Interchange.Text.FixedPoint
import Interchange.Trip

/-!
# JSON forms of ids, times, stops and trips

`toJson` writes a value, `ofJson` reads it. Ids, times and moments are strings in their own
text forms, and a text that its type refuses is refused here with the same message. Measures
and coordinates are numbers when they are read; in reports they are written as texts of fixed
decimals, coordinates with seven of them.
-/

namespace Interchange

open Json

/-! ### Ids, times and moments -/

def ScopedId.toJson (id : ScopedId) : Value := .string id.text

def ScopedId.ofJson : Decoder ScopedId :=
  decodeText fun s => (ScopedId.parse s).mapError (.refused ·.message)

def ServiceTime.toJson (t : ServiceTime) : Value := .string t.text

def ServiceTime.ofJson : Decoder ServiceTime :=
  decodeText fun s => (ServiceTime.parse s).mapError (.refused ·.message)

def DateTime.toJson (t : DateTime) : Value := .string t.text

def DateTime.ofJson : Decoder DateTime :=
  decodeText fun s => match DateTime.read? s with
    | some t => .ok t
    | none => .error .wrongShape

/-! ### Stops -/

/-- An angle in a report, as a text with seven decimals. It is a form for reading and comparing: the
wire carries angles as numbers, which is what `Coordinate.ofJson` reads, and this form is not read
back. -/
def degreesToJson (x : Float) : Value := .string (fixedPoint 7 x)

/-- A measure in a report, as a text with four decimals; like an angle it is a number on the wire,
and this form is not read back. -/
def measureToJson (x : Float) : Value := .string (fixedPoint 4 x)

def Coordinate.toJson (c : Coordinate) : Value :=
  .object [("latitude", degreesToJson c.latitude), ("longitude", degreesToJson c.longitude)]

def Coordinate.ofJson : Decoder Coordinate := fun d => do
  let fields := Prod.mk <$> required "latitude" decodeDouble <*> required "longitude" decodeDouble
  let (latitude, longitude) ← fields.decode d
  (Coordinate.make latitude longitude).mapError (.refused ·.message)

def Stop.toJson (s : Stop) : Value :=
  .object [("id", s.id.toJson), ("name", .string s.name), ("coordinate", s.coordinate.toJson)]

def Stop.fields : Fields Stop :=
  Stop.mk <$> required "id" ScopedId.ofJson
    <*> required "name" decodeString
    <*> required "coordinate" Coordinate.ofJson

def Stop.ofJson : Decoder Stop := Stop.fields.decode

/-! ### Trips -/

def Trip.toJson (t : Trip) : Value :=
  .object [("id", t.id.toJson), ("route_id", t.routeId.toJson),
    ("realtime_trip_id", .nullable .string t.realtimeTripId),
    ("long_name", .nullable .string t.longName)]

def Trip.fields : Fields Trip :=
  Trip.mk <$> required "id" ScopedId.ofJson
    <*> required "route_id" ScopedId.ofJson
    <*> optional "realtime_trip_id" (decodeNullable decodeString) none
    <*> optional "long_name" (decodeNullable decodeString) none

def Trip.ofJson : Decoder Trip := Trip.fields.decode

def Call.toJson (c : Call) : Value :=
  .object [("stop", .count c.stop), ("stop_sequence", .count c.sequence),
    ("arrival", c.arrival.toJson), ("departure", c.departure.toJson)]

def Call.fields : Fields Call :=
  Call.mk <$> required "stop" decodeCount
    <*> required "stop_sequence" decodeShortCount
    <*> required "arrival" ServiceTime.ofJson
    <*> required "departure" ServiceTime.ofJson

def Call.ofJson : Decoder Call := Call.fields.decode

def ScheduledTrip.toJson (s : ScheduledTrip) : Value :=
  .object [("trip", s.trip.toJson), ("stop_times", .list Call.toJson s.calls)]

def ScheduledTrip.fields : Fields ScheduledTrip :=
  ScheduledTrip.mk <$> required "trip" Trip.ofJson
    <*> required "stop_times" (decodeList Call.ofJson)

def ScheduledTrip.ofJson : Decoder ScheduledTrip := ScheduledTrip.fields.decode

def TripState.toJson (s : TripState) : Value := .string s.name

def TripState.ofJson : Decoder TripState :=
  decodeVariant (TripState.all.map fun s => (s.name, s))

end Interchange
