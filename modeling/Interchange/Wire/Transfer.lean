import Interchange.Transfer.Graph
import Interchange.Wire.Schedule

/-!
# JSON forms of footpaths and edges

Of a footpath only its end and its length have to be given.
-/

namespace Interchange

open Json

def Footpath.toJson (p : Footpath) : Value :=
  .object [("to", .count p.target), ("distance_meters", measureToJson p.distance),
    ("duration_secs", .nullable .count p.duration),
    ("elevation_gain_meters", measureToJson p.climb),
    ("wheelchair_accessible", .bool p.stepFree)]

def Footpath.fields : Fields Footpath :=
  Footpath.mk <$> required "to" decodeCount
    <*> required "distance_meters" decodeDouble
    <*> optional "duration_secs" (decodeNullable decodeShortCount) none
    <*> optional "elevation_gain_meters" decodeDouble 0
    <*> optional "wheelchair_accessible" decodeBool true

def Footpath.ofJson : Decoder Footpath := Footpath.fields.decode

def SearchDirection.toJson (d : SearchDirection) : Value := .string d.name

def SearchDirection.ofJson : Decoder SearchDirection :=
  decodeVariant ([.forward, .reverse].map fun d => (SearchDirection.name d, d))

def TransferCost.toJson (c : TransferCost) : Value :=
  .object [("duration_secs", .count c.duration), ("c1", .integer c.cost)]

def Edge.toJson (e : Edge) : Value :=
  .object [("stop", .count e.stop), ("duration_secs", .count e.duration),
    ("c1", .integer e.cost), ("reversed", .bool e.reversed)]

end Interchange
