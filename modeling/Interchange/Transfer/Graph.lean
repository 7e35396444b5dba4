import Interchange.Transfer.Footpath

/-!
# The transfer graph

For every stop the graph lists the edges that leave it and, in reverse, the edges that arrive
at it; between two stops there is at most one in either direction. It is built in two passes.

* The **forward pass** prices the footpaths of every stop and keeps the cheapest to each
  destination; of equally cheap ones the first stays. Stops do not depend on each other, so
  the pass can be split into tasks that write to slots of their own, in any order.
* The **reverse pass** turns every edge round and adds it to the list of its destination.

Before the passes every destination is checked to be a stop.
-/

namespace Interchange

/-- A transfer between two stops, as a search sees it from one of them. -/
structure Edge where
  /-- The stop at the far end -/
  stop : StopIndex
  /-- Seconds -/
  duration : Nat
  /-- Generalized cost in hundredths of a second -/
  cost : Int
  /-- Whether the search goes against the transfer -/
  reversed : Bool
deriving DecidableEq, Repr

namespace Edge

/-- The edge to a stop at a price. -/
def forwardTo (stop : StopIndex) (price : TransferCost) : Edge :=
  ⟨stop, price.duration, price.cost, false⟩

/-- The edge seen from its far end, where `origin` is the near end. -/
def turned (origin : StopIndex) (e : Edge) : Edge :=
  ⟨origin, e.duration, e.cost, !e.reversed⟩

end Edge

/-! ### The forward pass -/

/-- Adds an edge to a list that ascends by stop. Where there is one to the same stop, the new
edge replaces it only if it is strictly cheaper. -/
def keepCheaper (e : Edge) : List Edge → List Edge
  | [] => [e]
  | e' :: es =>
    if e.stop < e'.stop then e :: e' :: es
    else if e.stop = e'.stop then (if e.cost < e'.cost then e else e') :: es
    else e' :: keepCheaper e es

/-- The edges that leave a stop with the given footpaths, ascending by stop. -/
def edgesFrom (model : CostModel) (paths : List Footpath) : List Edge :=
  paths.foldl (fun es path =>
    match model path .forward with
    | some price => keepCheaper (.forwardTo path.target price) es
    | none => es) []

/-- The forward pass, stop by stop. -/
def forwardPass (model : CostModel) (paths : List (List Footpath)) : List (List Edge) :=
  paths.map (edgesFrom model)

/-- Cuts a list into chunks of `size` elements, and at least one; the last may have fewer. -/
def chunks {α : Type} (size : Nat) : List α → List (List α)
  | [] => []
  | a :: as => (a :: as.take (size - 1)) :: chunks size (as.drop (size - 1))
termination_by as => as.length
decreasing_by
  simp only [List.length_drop, List.length_cons]
  omega

/-- A share of the forward pass: slots to fill, and the footpaths of the stops they are for. -/
structure PassTask where
  slots : List StopIndex
  paths : List (List Footpath)

/-- What a task writes: the edges of each of its stops, to the slot that is paired with it. -/
def PassTask.writes (model : CostModel) (task : PassTask) : List (StopIndex × List Edge) :=
  (task.slots.zip task.paths).map fun (slot, paths) => (slot, edgesFrom model paths)

/-- Writes lists of edges to slots, one after the other. -/
def writeAll (lists : List (List Edge)) (writes : List (StopIndex × List Edge)) :
    List (List Edge) :=
  writes.foldl (fun lists (slot, edges) => lists.set slot edges) lists

/-- Carries out a task. -/
def PassTask.run (model : CostModel) (task : PassTask) (lists : List (List Edge)) :
    List (List Edge) :=
  writeAll lists (task.writes model)

/-- The number of stops in a task when `stops` stops are shared between workers, rounded up. -/
def shareSize (stops workers : Nat) : Nat := max 1 ((stops + workers - 1) / workers)

/-- The tasks of a forward pass by the given number of workers: slots and stops are cut into
chunks alike, and chunks at the same place make a task. -/
def passTasks (workers : Nat) (paths : List (List Footpath)) : List PassTask :=
  let size := shareSize paths.length workers
  List.zipWith PassTask.mk (chunks size (List.range paths.length)) (chunks size paths)

/-- The forward pass by several workers: all slots start empty, and the tasks fill them. -/
def forwardPassShared (model : CostModel) (workers : Nat) (paths : List (List Footpath)) :
    List (List Edge) :=
  (passTasks workers paths).foldl (fun lists task => task.run model lists)
    (List.replicate paths.length [])

/-! ### The reverse pass -/

/-- Adds the turned edges of one stop to the lists of their destinations. -/
def addTurned (origin : StopIndex) (edges : List Edge) (reverse : List (List Edge)) :
    List (List Edge) :=
  edges.foldl (fun reverse e => reverse.modify e.stop (· ++ [e.turned origin])) reverse

/-- The reverse pass: every edge is turned and added to the list of its destination. -/
def reversePass (forward : List (List Edge)) : List (List Edge) :=
  forward.zipIdx.foldl (fun reverse (edges, origin) => addTurned origin edges reverse)
    (List.replicate forward.length [])

/-! ### The graph -/

/-- The transfers of a network, in both directions. -/
structure TransferGraph where
  forward : List (List Edge)
  reverse : List (List Edge)
deriving DecidableEq

/-- A footpath that leads nowhere. -/
structure TransferGraphError where
  origin : StopIndex
  target : StopIndex
  stopCount : Nat
deriving DecidableEq, Repr

/-- The wording of a refusal. -/
def TransferGraphError.message (e : TransferGraphError) : String :=
  s!"transfer from stop {e.origin} targets stop {e.target}, but the network has " ++
    s!"{e.stopCount} stops"

/-- How the graph is built. -/
structure BuildSettings where
  /-- Whether the forward pass is shared between workers -/
  parallel : Bool
  /-- The number of workers if it is -/
  workers : Nat
deriving DecidableEq, Repr

/-- The workers used for a number of stops: never more than stops, and at least one. -/
def BuildSettings.effectiveWorkers (s : BuildSettings) (stops : Nat) : Nat :=
  if s.parallel then max 1 (min s.workers stops) else 1

/-- One worker that does everything. -/
def BuildSettings.serial : BuildSettings := ⟨false, 1⟩

namespace TransferGraph

/-- The first footpath, in the order of the stops, that leads to no stop. -/
def firstStray (paths : List (List Footpath)) : Option TransferGraphError :=
  paths.zipIdx.findSome? fun (ps, origin) =>
    (ps.find? fun p => paths.length ≤ p.target).map fun p => ⟨origin, p.target, paths.length⟩

/-- The graph without transfers. -/
def empty (stops : Nat) : TransferGraph := ⟨List.replicate stops [], List.replicate stops []⟩

/-- The graph of the footpaths that leave each stop. -/
def build (paths : List (List Footpath)) (model : CostModel) (settings : BuildSettings) :
    Except TransferGraphError TransferGraph :=
  match firstStray paths with
  | some e => .error e
  | none =>
    let workers := settings.effectiveWorkers paths.length
    let forward :=
      if 1 < workers then forwardPassShared model workers paths else forwardPass model paths
    .ok ⟨forward, reversePass forward⟩

/-- The edges that leave a stop; an unknown stop has none. -/
def edgesLeaving (g : TransferGraph) (stop : StopIndex) : List Edge := g.forward.getD stop []

/-- The edges that arrive at a stop, turned; an unknown stop has none. -/
def edgesArriving (g : TransferGraph) (stop : StopIndex) : List Edge := g.reverse.getD stop []

/-- The edges for a direction of search. -/
def edges (g : TransferGraph) (stop : StopIndex) : SearchDirection → List Edge
  | .forward => g.edgesLeaving stop
  | .reverse => g.edgesArriving stop

/-- The number of stops covered. -/
def stopCount (g : TransferGraph) : Nat := g.forward.length

/-- The number of edges in one direction. -/
def edgeCount (g : TransferGraph) : Nat := g.forward.flatten.length

end TransferGraph

end Interchange
