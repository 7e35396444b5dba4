import Interchange.ScopedId

/-!
# Stops and their positions

A `Coordinate` is a position in degrees, within range and rounded to seven decimals, so that
equal positions from different feeds compare equal. Distances use the equirectangular
projection, which is accurate for the short ways between stops.

A network addresses its stops by their index in its list of stops.
-/

namespace Interchange

/-- The index of a stop within one network. -/
abbrev StopIndex := Nat

/-- An index for which a network has no stop. -/
structure StopIndexError where
  index : StopIndex
  stopCount : Nat
deriving DecidableEq, Repr

/-- The wording of a refusal. -/
def StopIndexError.message (e : StopIndexError) : String :=
  s!"stop index {e.index} out of range (network has {e.stopCount} stops)"

/-- A position on the earth. -/
structure Coordinate where
  latitude : Float
  longitude : Float

/-- Why two numbers are no position. -/
inductive CoordinateError where
  | latitude
  | longitude
deriving DecidableEq, Repr

/-- The wording of a refusal. -/
def CoordinateError.message (e : CoordinateError) : String :=
  "invalid coordinate: " ++ match e with
    | .latitude => "latitude must be in -90..=90"
    | .longitude => "longitude must be in -180..=180"

namespace Coordinate

/-- Rounds to seven decimals, about a centimetre; a tie goes away from zero. -/
def roundDegrees (x : Float) : Float := (x * 1e7).round / 1e7

private def within (limit x : Float) : Bool := -limit ≤ x && x ≤ limit

/-- The position at the given degrees; no number and numbers out of range are refused. -/
def make (latitude longitude : Float) : Except CoordinateError Coordinate :=
  if !within 90 latitude then .error .latitude
  else if !within 180 longitude then .error .longitude
  else .ok ⟨roundDegrees latitude, roundDegrees longitude⟩

/-- Whether two positions are equal, axis by axis. -/
def same (a b : Coordinate) : Bool := a.latitude == b.latitude && a.longitude == b.longitude

/-! ### Distance -/

/-- The mean radius of the earth in meters. -/
def earthRadius : Float := 6371010

private def radiansPerDegree : Float := 3.14159265358979323846264338327950288 / 180

private def degreesPerRadian : Float := 57.2957795130823208767981548141051703

/-- The difference in latitude, in degrees, that alone covers `meters`. -/
def latitudeSpan (meters : Float) : Float := meters / earthRadius * degreesPerRadian

/-- The distance between two positions in meters. -/
def distance (a b : Coordinate) : Float :=
  let lat₁ := a.latitude * radiansPerDegree
  let lat₂ := b.latitude * radiansPerDegree
  let x := (b.longitude - a.longitude) * radiansPerDegree * ((lat₁ + lat₂) / 2).cos
  let y := lat₂ - lat₁
  (x * x + y * y).sqrt * earthRadius

end Coordinate

/-- A place where riders board and alight. -/
structure Stop where
  id : ScopedId
  name : String
  coordinate : Coordinate

end Interchange
