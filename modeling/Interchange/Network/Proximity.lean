import Interchange.Stop

/-!
# Stops near each other

Which stops are within walking distance of each other? Comparing all pairs is wasteful where
most are far apart. A *sweep* goes through the items in an order in which distance builds up,
and pairs each with those behind it until one is out of reach; nothing behind that one can be
near. Stops are swept from south to north, since a gap in latitude is a distance by itself.

`Sweep` says what the sweep needs to know of the items, `Sweep.nearPairs` finds the pairs,
and `Sweep.allNearPairs` is the full scan that it replaces.
-/

namespace Interchange

/-- Two items within reach, by their indices, and how far apart they are. -/
structure NearPair (δ : Type) where
  first : Nat
  second : Nat
  distance : δ
deriving DecidableEq

/-- Pairs are ordered by their first item, then by their second. -/
def NearPair.le {δ : Type} (p q : NearPair δ) : Bool :=
  p.first < q.first || (p.first = q.first && p.second ≤ q.second)

/-- What a sweep over items of `α` knows of them. -/
structure Sweep (α δ : Type) where
  /-- Whether the first item comes no later than the second -/
  before : α → α → Bool
  /-- Whether the second item, which comes later, and all behind it are too far away -/
  outOfReach : α → α → Bool
  distance : α → α → δ
  near : δ → Bool

namespace Sweep

variable {α δ : Type}

/-- The near pairs of the item `a` of index `i` with items that come later. -/
def pairsAhead (s : Sweep α δ) (a : α) (i : Nat) : List (α × Nat) → List (NearPair δ)
  | [] => []
  | (b, j) :: rest =>
    if s.outOfReach a b then []
    else
      let d := s.distance a b
      if s.near d then ⟨min i j, max i j, d⟩ :: s.pairsAhead a i rest else s.pairsAhead a i rest

/-- The near pairs among items that have been put in order. -/
def pairsInOrder (s : Sweep α δ) : List (α × Nat) → List (NearPair δ)
  | [] => []
  | (a, i) :: rest => s.pairsAhead a i rest ++ s.pairsInOrder rest

/-- The near pairs, each once and with the lower index first, in the order of their indices. -/
def nearPairs (s : Sweep α δ) (items : List α) : List (NearPair δ) :=
  (s.pairsInOrder (items.zipIdx.mergeSort fun x y => s.before x.1 y.1)).mergeSort NearPair.le

/-! ### The full scan -/

/-- The near pairs of the item `a` of index `i` with the items behind it. -/
def scanAhead (s : Sweep α δ) (a : α) (i : Nat) (rest : List (α × Nat)) : List (NearPair δ) :=
  rest.filterMap fun (b, j) =>
    let d := s.distance a b
    if s.near d then some ⟨i, j, d⟩ else none

/-- The near pairs of a list of items with their indices, found by comparing all of them. -/
def scan (s : Sweep α δ) : List (α × Nat) → List (NearPair δ)
  | [] => []
  | (a, i) :: rest => s.scanAhead a i rest ++ s.scan rest

/-- The near pairs of a list of items, found by comparing all of them. -/
def allNearPairs (s : Sweep α δ) (items : List α) : List (NearPair δ) := s.scan items.zipIdx

end Sweep

/-! ### Stops -/

/-- The sweep that finds stops at most `meters` apart. -/
def stopSweep (meters : Float) : Sweep Stop Float where
  before a b := a.coordinate.latitude ≤ b.coordinate.latitude
  outOfReach a b :=
    b.coordinate.latitude - a.coordinate.latitude > Coordinate.latitudeSpan meters
  distance a b := a.coordinate.distance b.coordinate
  near d := d ≤ meters

end Interchange
