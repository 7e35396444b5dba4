import Interchange.ServiceTime
import Interchange.Stop

/-!
# Footpaths and what they cost

A `Footpath` is one way to walk from a stop to another, as the street network offers it.
Several may lead to the same stop. A cost model prices a footpath for a direction of search,
or drops it; the walking model derives the price from length and climb.
-/

namespace Interchange

/-- A way to walk to a stop; the list that holds it belongs to the stop it leaves. -/
structure Footpath where
  target : StopIndex
  /-- Length in meters -/
  distance : Float
  /-- The time it takes, where it is known, in seconds -/
  duration : Option Nat := none
  /-- Net height climbed on the way there, in meters -/
  climb : Float := 0
  /-- Whether it has no steps -/
  stepFree : Bool := true

/-- A flat footpath without steps. -/
def Footpath.flat (target : StopIndex) (distance : Float) : Footpath := { target, distance }

/-- The direction in which a search goes through the network. -/
inductive SearchDirection where
  /-- From a departure onwards -/
  | forward
  /-- From an arrival backwards -/
  | reverse
deriving DecidableEq, Repr

/-- The name of a direction. -/
def SearchDirection.name : SearchDirection → String
  | .forward => "forward"
  | .reverse => "reverse"

/-- What it costs to use a footpath. -/
structure TransferCost where
  /-- Seconds -/
  duration : Nat
  /-- Generalized cost in hundredths of a second -/
  cost : Int
deriving DecidableEq, Repr

/-- Prices a footpath, or drops it. -/
abbrev CostModel := Footpath → SearchDirection → Option TransferCost

/-! ### The walking model -/

/-- How a rider walks. -/
structure WalkModel where
  /-- Meters per second -/
  speed : Float := 1.33
  /-- How much worse a second of walking is than a second of riding -/
  reluctance : Float := 2.0
  /-- Whether footpaths with steps are of no use -/
  wheelchair : Bool := false

namespace WalkModel

/-- The meters on flat ground that one meter of climb is worth. -/
def climbFactor : Float := 8

private def positivePart (x : Float) : Float := if x > 0 then x else 0

/-- The seconds that a footpath takes: the known duration, or else the length adjusted for
the climb at walking speed, rounded up and kept within 32 bits. Searching in reverse, a climb
is a descent. -/
def duration (m : WalkModel) (path : Footpath) (direction : SearchDirection) : Nat :=
  match path.duration with
  | some duration => duration
  | none =>
    let climb := match direction with
      | .forward => path.climb
      | .reverse => -path.climb
    let meters := path.distance + positivePart climb * climbFactor
    (positivePart (meters / m.speed).ceil).toUInt32.toNat

/-- The generalized cost of walking for the given seconds, rounded and kept within 32 bits. -/
def generalizedCost (m : WalkModel) (duration : Nat) : Int :=
  (Float.ofNat duration * m.reluctance * 100).round.toInt32.toInt

/-- The price of a footpath, unless it has steps and the rider cannot use them. -/
def cost (m : WalkModel) : CostModel := fun path direction =>
  if m.wheelchair && !path.stepFree then none
  else
    let duration := m.duration path direction
    some ⟨duration, m.generalizedCost duration⟩

end WalkModel

end Interchange
