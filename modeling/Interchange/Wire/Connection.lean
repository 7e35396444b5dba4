import Interchange.Connection.Index
import Interchange.Wire.Schedule

/-!
# JSON forms of connections

Everything in a rule may be left out; the rule that overrides nothing is the empty object.
-/

namespace Interchange

open Json

def Priority.toJson (p : Priority) : Value := .string p.name

def Priority.ofJson : Decoder Priority := decodeVariant (Priority.all.map fun p => (p.name, p))

def ConnectionRule.toJson (r : ConnectionRule) : Value :=
  .object [("priority", r.priority.toJson), ("stay_seated", .bool r.staySeated),
    ("guaranteed", .bool r.guaranteed),
    ("min_transfer_time", .nullable .integer r.minTransferTime),
    ("max_wait_time", .nullable .integer r.maxWaitTime)]

def ConnectionRule.fields : Fields ConnectionRule :=
  ConnectionRule.mk <$> optional "priority" Priority.ofJson .allowed
    <*> optional "stay_seated" decodeBool false
    <*> optional "guaranteed" decodeBool false
    <*> optional "min_transfer_time" (decodeNullable decodeShortInteger) none
    <*> optional "max_wait_time" (decodeNullable decodeShortInteger) none

def ConnectionRule.ofJson : Decoder ConnectionRule := ConnectionRule.fields.decode

def TripPosition.toJson (p : TripPosition) : Value :=
  .object [("trip", p.trip.toJson), ("stop_pos", .count p.position)]

def TripPosition.fields : Fields TripPosition :=
  TripPosition.mk <$> required "trip" ScopedId.ofJson <*> required "stop_pos" decodeCount

def TripPosition.ofJson : Decoder TripPosition := TripPosition.fields.decode

def Connection.toJson (c : Connection) : Value :=
  .object [("source", c.source.toJson), ("target", c.target.toJson),
    ("target_trip_index", .count c.targetTripIndex), ("target_time", c.targetTime.toJson),
    ("constraint", c.rule.toJson)]

def Connection.fields : Fields Connection :=
  Connection.mk <$> required "source" TripPosition.ofJson
    <*> required "target" TripPosition.ofJson
    <*> required "target_trip_index" decodeCount
    <*> required "target_time" ServiceTime.ofJson
    <*> required "constraint" ConnectionRule.ofJson

def Connection.ofJson : Decoder Connection := Connection.fields.decode

end Interchange
