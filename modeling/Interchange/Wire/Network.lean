import Interchange.Network.Build
import Interchange.Wire.Connection
import Interchange.Wire.Transfer
import Interchange.Wire.Version

/-!
# JSON forms of networks

Everything in a description may be left out; the empty object describes a network without
stops.
-/

namespace Interchange

open Json

def Description.toJson (d : Description) : Value :=
  .object [("stops", .list Stop.toJson d.stops),
    ("transfers", .list (.list Footpath.toJson) d.footpaths),
    ("max_walk_meters", .nullable measureToJson d.maxWalk),
    ("constrained_transfers", .list Connection.toJson d.connections),
    ("trips", .list (Versioned.toJson ScheduledTrip.toJson) d.trips)]

def Description.fields : Fields Description :=
  Description.mk <$> optional "stops" (decodeList Stop.ofJson) []
    <*> optional "transfers" (decodeList (decodeList Footpath.ofJson)) []
    <*> optional "max_walk_meters" (decodeNullable decodeDouble) none
    <*> optional "constrained_transfers" (decodeList Connection.ofJson) []
    <*> optional "trips" (decodeList (Versioned.ofJson ScheduledTrip.ofJson)) []

def Description.ofJson : Decoder Description := Description.fields.decode

def NetworkSummary.toJson (s : NetworkSummary) : Value :=
  .object [("stops", .count s.stops), ("transfer_edges", .count s.edges),
    ("constrained_transfers", .count s.connections), ("forbidden_transfers", .count s.forbidden),
    ("trips", .count s.trips), ("built_at", s.builtAt.toJson)]

end Interchange
