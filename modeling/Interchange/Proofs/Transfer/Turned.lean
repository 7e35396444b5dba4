import Interchange.Proofs.Checks
import Interchange.Proofs.Transfer.Cheapest

/-!
# The reverse pass

The reverse pass goes through all edges once, origin by origin, and pushes each, turned round, to
the list of its destination. A list therefore holds the turned edges to its stop in the order of
their origins (`getElem?_reversePass`), and nothing is lost as long as all destinations are stops.
`TransferGraph.Mirrored` says what this makes of a graph.
-/

namespace Interchange

/-! ### Pushing edges to lists -/

/-- Pushes edges to the lists at the given positions, one after the other. -/
def pushAll (lists : List (List Edge)) (pushes : List (StopIndex × Edge)) : List (List Edge) :=
  pushes.foldl (fun lists (stop, e) => lists.modify stop (· ++ [e])) lists

section Pushes

variable {lists : List (List Edge)} {pushes : List (StopIndex × Edge)}

@[simp]
theorem length_pushAll (lists : List (List Edge)) (pushes : List (StopIndex × Edge)) :
    (pushAll lists pushes).length = lists.length := by
  induction pushes generalizing lists with
  | nil => rfl
  | cons p pushes ih => exact (ih _).trans (List.length_modify ..)

/-- A list grows by what is pushed to its position. -/
private theorem getElem?_pushAll (lists : List (List Edge)) (pushes : List (StopIndex × Edge))
    (stop : StopIndex) :
    (pushAll lists pushes)[stop]? =
      lists[stop]?.map (· ++ (pushes.filter fun p => p.1 = stop).map Prod.snd) := by
  induction pushes generalizing lists with
  | nil => simp [pushAll]
  | cons p pushes ih =>
    have hpush : pushAll lists (p :: pushes) =
      pushAll (lists.modify p.1 (· ++ [p.2])) pushes := rfl
    rw [hpush, ih, List.getElem?_modify, List.filter_cons]
    by_cases hp : p.1 = stop
    · simp [hp, Function.comp_def]
    · simp [hp]

private theorem length_flatten_modify {stop : StopIndex} (h : stop < lists.length) (e : Edge) :
    (lists.modify stop (· ++ [e])).flatten.length = lists.flatten.length + 1 := by
  induction lists generalizing stop with
  | nil => exact absurd h (Nat.not_lt_zero _)
  | cons es lists ih =>
    cases stop with
    | zero =>
      simp only [List.modify_zero_cons, List.flatten_cons, List.length_append,
        List.length_singleton]
      omega
    | succ stop =>
      rw [List.modify_succ_cons, List.flatten_cons, List.length_append,
        ih (Nat.lt_of_succ_lt_succ h), List.flatten_cons, List.length_append, Nat.add_assoc]

/-- Nothing is lost that is pushed to a position that there is. -/
private theorem length_flatten_pushAll (h : ∀ p ∈ pushes, p.1 < lists.length) :
    (pushAll lists pushes).flatten.length = lists.flatten.length + pushes.length := by
  induction pushes generalizing lists with
  | nil => rfl
  | cons p pushes ih =>
    obtain ⟨hp, hrest⟩ := List.forall_mem_cons.mp h
    have hpush : pushAll lists (p :: pushes) =
      pushAll (lists.modify p.1 (· ++ [p.2])) pushes := rfl
    have hrest' : ∀ q ∈ pushes, q.1 < (lists.modify p.1 (· ++ [p.2])).length := by
      simpa using hrest
    rw [hpush, ih hrest', length_flatten_modify hp, List.length_cons]
    omega

end Pushes

/-! ### Turning all edges -/

/-- The edges of a forward pass, turned, in the order in which the reverse pass comes to them, each
with the stop to whose list it is pushed. -/
def turns (forward : List (List Edge)) : List (StopIndex × Edge) :=
  forward.zipIdx.flatMap fun (edges, origin) => edges.map fun e => (e.stop, e.turned origin)

section Turns

variable {forward : List (List Edge)} {stop : StopIndex} {e : Edge}

/-- The reverse pass pushes the turned edges, one after the other, to their destinations. -/
theorem reversePass_eq (forward : List (List Edge)) :
    reversePass forward = pushAll (List.replicate forward.length []) (turns forward) := by
  simp only [pushAll, turns, List.foldl_flatMap, List.foldl_map]
  rfl

/-- What is pushed are the edges of all stops, each turned and to its destination. -/
private theorem mem_turns_iff :
    (stop, e) ∈ turns forward ↔
      ∃ (origin : StopIndex) (edges : List Edge) (f : Edge), forward[origin]? = some edges ∧
        f ∈ edges ∧ f.stop = stop ∧ f.turned origin = e := by
  constructor
  · intro h
    obtain ⟨⟨edges, origin⟩, hedges, h⟩ := List.mem_flatMap.mp h
    obtain ⟨f, hf, heq⟩ := List.mem_map.mp h
    obtain ⟨hstop, hturned⟩ := Prod.mk.inj heq
    exact ⟨origin, edges, f, List.mk_mem_zipIdx_iff_getElem?.mp hedges, hf, hstop, hturned⟩
  · rintro ⟨origin, edges, f, hedges, hf, rfl, rfl⟩
    exact List.mem_flatMap.mpr ⟨(edges, origin), List.mk_mem_zipIdx_iff_getElem?.mpr hedges,
      List.mem_map_of_mem hf⟩

private theorem length_turns (forward : List (List Edge)) :
    (turns forward).length = forward.flatten.length := by
  -- the origins of a tail are counted from a later start
  suffices h : ∀ start, ((forward.zipIdx start).flatMap fun (edges, origin) =>
      edges.map fun e => (e.stop, e.turned origin)).length = forward.flatten.length from h 0
  induction forward with
  | nil => exact fun _ => rfl
  | cons edges forward ih =>
    intro start
    rw [List.zipIdx_cons, List.flatMap_cons, List.length_append, List.length_map, ih,
      List.flatten_cons, List.length_append]

/-- **Origins ascend.** Of two turned edges to the same stop, the one with the smaller origin is
pushed first. -/
theorem pairwise_turns (h : ∀ edges ∈ forward, Ascending edges) :
    (turns forward).Pairwise fun p q => p.1 = q.1 → p.2.stop < q.2.stop := by
  refine List.pairwise_flatMap.mpr ⟨?_, ?_⟩
  · -- edges of one origin go to different stops
    rintro ⟨edges, origin⟩ hedges
    have hasc := h edges (List.mem_of_getElem? (List.mk_mem_zipIdx_iff_getElem?.mp hedges))
    refine List.pairwise_map.mpr (hasc.imp fun {e f} hlt heq => ?_)
    exact absurd heq (Nat.ne_of_lt hlt)
  · -- edges of different origins are pushed in the order of the origins
    refine (pairwise_zipIdx forward).imp fun {a b} hlt p hp q hq _ => ?_
    obtain ⟨e, -, rfl⟩ := List.mem_map.mp hp
    obtain ⟨f, -, rfl⟩ := List.mem_map.mp hq
    exact hlt

/-- The list of a stop has all turned edges to it, in the order of their origins. -/
theorem getElem?_reversePass (hstop : stop < forward.length) :
    (reversePass forward)[stop]? =
      some (((turns forward).filter fun p => p.1 = stop).map Prod.snd) := by
  rw [reversePass_eq, getElem?_pushAll, List.getElem?_replicate, if_pos hstop]
  rfl

end Turns

/-! ### Bounds -/

/-- `addTurned` with every position checked before it is pushed to. -/
def addTurned? (origin : StopIndex) (edges : List Edge) (reverse : List (List Edge)) :
    Option (List (List Edge)) :=
  edges.foldlM (fun reverse e =>
    if e.stop < reverse.length then some (reverse.modify e.stop (· ++ [e.turned origin]))
    else none) reverse

/-- `reversePass` with every position checked before it is pushed to. -/
def reversePass? (forward : List (List Edge)) : Option (List (List Edge)) :=
  forward.zipIdx.foldlM (fun reverse (edges, origin) => addTurned? origin edges reverse)
    (List.replicate forward.length [])

section Bounds

variable {stops : Nat} {origin : StopIndex} {edges : List Edge} {reverse : List (List Edge)}

/-- A loop whose steps all succeed and keep `P` succeeds and keeps `P`. -/
private theorem foldlM_eq_some {α β : Type} {f? : β → α → Option β} {f : β → α → β} {P : β → Prop}
    {as : List α} {b : β} (hb : P b)
    (hstep : ∀ b, P b → ∀ a ∈ as, f? b a = some (f b a) ∧ P (f b a)) :
    as.foldlM f? b = some (as.foldl f b) ∧ P (as.foldl f b) := by
  induction as generalizing b with
  | nil => exact ⟨rfl, hb⟩
  | cons a as ih =>
    obtain ⟨ha, hnext⟩ := hstep b hb a List.mem_cons_self
    rw [List.foldlM_cons, ha]
    exact ih hnext fun b hb a ha => hstep b hb a (List.mem_cons_of_mem _ ha)

/-- Where every edge leads to a stop, no push is out of range. -/
private theorem addTurned?_eq_some (hreverse : reverse.length = stops)
    (h : ∀ e ∈ edges, e.stop < stops) :
    addTurned? origin edges reverse = some (addTurned origin edges reverse) ∧
      (addTurned origin edges reverse).length = stops := by
  refine foldlM_eq_some (P := fun reverse : List (List Edge) => reverse.length = stops) hreverse ?_
  intro reverse hreverse e he
  have hbound : e.stop < reverse.length := by
    rw [hreverse]
    exact h e he
  exact ⟨if_pos hbound, (List.length_modify ..).trans hreverse⟩

/-- **No push is out of bounds** if all edges lead to stops. -/
theorem reversePass?_eq_some {forward : List (List Edge)}
    (h : ∀ edges ∈ forward, ∀ e ∈ edges, e.stop < forward.length) :
    reversePass? forward = some (reversePass forward) := by
  refine (foldlM_eq_some (P := fun reverse => reverse.length = forward.length)
    List.length_replicate ?_).1
  rintro reverse hreverse ⟨edges, origin⟩ hedges
  exact addTurned?_eq_some hreverse
    (h edges (List.mem_of_getElem? (List.mk_mem_zipIdx_iff_getElem?.mp hedges)))

end Bounds

/-! ### The graph -/

namespace TransferGraph

variable {paths : List (List Footpath)} {model : CostModel} {settings : BuildSettings}
  {g : TransferGraph}

/-- **The two directions mirror each other.** -/
structure Mirrored (g : TransferGraph) : Prop where
  /-- Both directions cover the same stops -/
  stops : g.reverse.length = g.stopCount
  /-- An edge leaves one stop for another exactly if it arrives there, turned -/
  turned : ∀ a b duration cost,
    ⟨b, duration, cost, false⟩ ∈ g.edgesLeaving a ↔ ⟨a, duration, cost, true⟩ ∈ g.edgesArriving b
  /-- There are no other edges -/
  oriented : ∀ stop, (∀ e ∈ g.edgesLeaving stop, e.reversed = false) ∧
    ∀ e ∈ g.edgesArriving stop, e.reversed = true
  /-- Edges that arrive ascend by origin, so there is at most one from each -/
  ascending : ∀ stop, (g.edgesArriving stop).Pairwise fun e f => e.stop < f.stop
  count : g.reverse.flatten.length = g.edgeCount
  /-- The reverse pass never pushes to a list that is not there -/
  bounds : reversePass? g.forward = some g.reverse

private theorem reverse_eq (h : build paths model settings = .ok g) :
    g.reverse = reversePass g.forward := by
  obtain ⟨-, rfl⟩ := build_eq_ok_iff.mp h
  rfl

private theorem ascending_of_mem_forward (h : build paths model settings = .ok g)
    {edges : List Edge} (hedges : edges ∈ g.forward) : Ascending edges := by
  obtain ⟨-, rfl⟩ := build_eq_ok_iff.mp h
  obtain ⟨ps, -, rfl⟩ := List.mem_map.mp hedges
  exact ascending_edgesFrom model ps

/-- Every edge leads to a stop, as its footpath does. -/
theorem stop_lt_of_mem_forward (h : build paths model settings = .ok g) {edges : List Edge}
    (hedges : edges ∈ g.forward) {e : Edge} (he : e ∈ edges) : e.stop < g.stopCount := by
  obtain ⟨hstops, rfl⟩ := build_eq_ok_iff.mp h
  obtain ⟨ps, hps, rfl⟩ := List.mem_map.mp hedges
  obtain ⟨path, hpath, htarget, -⟩ := exists_mem_edgesFrom_iff.mp ⟨e, he, rfl⟩
  rw [← htarget, stopCount, forwardPass, List.length_map]
  exact hstops ps hps path hpath

private theorem reversed_of_mem_edgesLeaving (h : build paths model settings = .ok g)
    {stop : StopIndex} {e : Edge} (he : e ∈ g.edgesLeaving stop) : e.reversed = false := by
  rw [edgesLeaving_eq h] at he
  cases hps : paths[stop]? with
  | none =>
    rw [hps] at he
    cases he
  | some ps =>
    rw [hps] at he
    obtain ⟨i, price, -, hedge⟩ := firstCheapest_of_mem_edgesFrom he
    rw [hedge]
    rfl

theorem mem_edgesLeaving_iff {stop : StopIndex} {e : Edge} :
    e ∈ g.edgesLeaving stop ↔ ∃ edges, g.forward[stop]? = some edges ∧ e ∈ edges := by
  rw [edgesLeaving, List.getD_eq_getElem?_getD]
  cases g.forward[stop]? <;> simp

/-- Edges lead to stops, so they are pushed to lists that there are. -/
private theorem stop_lt_of_mem_turns (h : build paths model settings = .ok g) {p : StopIndex × Edge}
    (hp : p ∈ turns g.forward) : p.1 < g.stopCount := by
  obtain ⟨origin, edges, f, hedges, hf, hstop, -⟩ := mem_turns_iff.mp hp
  rw [← hstop]
  exact stop_lt_of_mem_forward h (List.mem_of_getElem? hedges) hf

/-- What arrives at a stop, in order. -/
theorem edgesArriving_eq (h : build paths model settings = .ok g) (stop : StopIndex) :
    g.edgesArriving stop = ((turns g.forward).filter fun p => p.1 = stop).map Prod.snd := by
  rw [edgesArriving, List.getD_eq_getElem?_getD, reverse_eq h]
  by_cases hstop : stop < g.forward.length
  · rw [getElem?_reversePass hstop, Option.getD_some]
  · -- nothing is pushed to what is no stop
    have hnone : ((turns g.forward).filter fun p => p.1 = stop) = [] := by
      refine List.filter_eq_nil_iff.mpr fun p hp heq => hstop ?_
      rw [← of_decide_eq_true heq]
      exact stop_lt_of_mem_turns h hp
    rw [hnone, List.getElem?_eq_none]
    · rfl
    · rw [reversePass_eq, length_pushAll, List.length_replicate]
      exact Nat.le_of_not_lt hstop

/-- The edges that arrive at a stop are the turned edges that lead there. -/
theorem mem_edgesArriving_iff (h : build paths model settings = .ok g) {stop : StopIndex}
    {e : Edge} :
    e ∈ g.edgesArriving stop ↔
      ∃ (origin : StopIndex) (f : Edge), f ∈ g.edgesLeaving origin ∧ f.stop = stop ∧
        f.turned origin = e := by
  rw [edgesArriving_eq h, List.mem_map]
  constructor
  · rintro ⟨⟨b, e⟩, hmem, rfl⟩
    obtain ⟨hmem, hb⟩ := List.mem_filter.mp hmem
    obtain ⟨origin, edges, f, hedges, hf, hstop, hturned⟩ := mem_turns_iff.mp hmem
    exact ⟨origin, f, mem_edgesLeaving_iff.mpr ⟨edges, hedges, hf⟩,
      hstop.trans (of_decide_eq_true hb), hturned⟩
  · rintro ⟨origin, f, hf, rfl, rfl⟩
    obtain ⟨edges, hedges, hf⟩ := mem_edgesLeaving_iff.mp hf
    have hmem := mem_turns_iff.mpr ⟨origin, edges, f, hedges, hf, rfl, rfl⟩
    exact ⟨_, List.mem_filter.mpr ⟨hmem, decide_eq_true rfl⟩, rfl⟩

/-- The far end of a turned edge is a stop as well: the one that the edge leaves. -/
theorem stop_lt_of_mem_reverse (h : build paths model settings = .ok g) {edges : List Edge}
    (hedges : edges ∈ g.reverse) {e : Edge} (he : e ∈ edges) : e.stop < g.stopCount := by
  obtain ⟨stop, hstop⟩ := List.mem_iff_getElem?.mp hedges
  have harriving : e ∈ g.edgesArriving stop := by
    rwa [edgesArriving, List.getD_eq_getElem?_getD, hstop]
  obtain ⟨origin, f, hf, -, rfl⟩ := (mem_edgesArriving_iff h).mp harriving
  obtain ⟨edges', hleaving, -⟩ := mem_edgesLeaving_iff.mp hf
  exact (List.getElem?_eq_some_iff.mp hleaving).1

/-- Edges that arrive at a stop ascend by origin. -/
theorem pairwise_edgesArriving (h : build paths model settings = .ok g) (stop : StopIndex) :
    (g.edgesArriving stop).Pairwise fun e f => e.stop < f.stop := by
  rw [edgesArriving_eq h]
  have hturns := pairwise_turns fun edges hedges => ascending_of_mem_forward h hedges
  refine List.pairwise_map.mpr ((hturns.filter _).imp_of_mem fun hp hq hlt => hlt ?_)
  rw [of_decide_eq_true (List.mem_filter.mp hp).2, of_decide_eq_true (List.mem_filter.mp hq).2]

/-- There are as many turned edges as edges. -/
theorem length_flatten_reverse (h : build paths model settings = .ok g) :
    g.reverse.flatten.length = g.edgeCount := by
  have hbound : ∀ p ∈ turns g.forward,
      p.1 < (List.replicate g.forward.length ([] : List Edge)).length := by
    intro p hp
    rw [List.length_replicate]
    exact stop_lt_of_mem_turns h hp
  rw [reverse_eq h, reversePass_eq, length_flatten_pushAll hbound, length_turns,
    List.flatten_replicate_nil, List.length_nil, Nat.zero_add, edgeCount]

/-- **Mirroring.** In every graph that is built the reverse direction is the exact transpose of
the forward direction. -/
theorem mirrored_of_build (h : build paths model settings = .ok g) : g.Mirrored where
  stops := by
    rw [reverse_eq h, reversePass_eq, length_pushAll, List.length_replicate, stopCount]
  turned a b duration cost := by
    rw [mem_edgesArriving_iff h]
    constructor
    · exact fun he => ⟨a, _, he, rfl, rfl⟩
    · -- an edge can be read off its turned form
      rintro ⟨origin, ⟨stop, duration', cost', reversed⟩, hf, rfl, hturned⟩
      obtain ⟨rfl, rfl, rfl, hreversed⟩ := Edge.mk.inj hturned
      obtain rfl : reversed = false := by simpa using hreversed
      exact hf
  oriented stop := by
    refine ⟨fun e he => reversed_of_mem_edgesLeaving h he, fun e he => ?_⟩
    obtain ⟨origin, f, hf, -, rfl⟩ := (mem_edgesArriving_iff h).mp he
    rw [Edge.turned, reversed_of_mem_edgesLeaving h hf]
    rfl
  ascending := pairwise_edgesArriving h
  count := length_flatten_reverse h
  bounds := by
    rw [reverse_eq h]
    exact reversePass?_eq_some fun edges hedges e he => stop_lt_of_mem_forward h hedges he

/-- Of three stops the last is reached from both others; of two footpaths from the first it sees
the cheaper. -/
theorem mirrored_of_build_three :
    let way (target : StopIndex) (duration : Nat) : Footpath :=
      { target, distance := 0, duration := some duration }
    let paths := [[way 1 30, way 2 50, way 2 40], [way 2 60], [way 0 70]]
    let model : CostModel := fun path _ => path.duration.map fun d => ⟨d, 2 * d⟩
    ∃ g, build paths model .serial = .ok g ∧ g.Mirrored ∧
      g.edgesArriving 2 = [⟨0, 40, 80, true⟩, ⟨1, 60, 120, true⟩] := by
  intro way paths model
  have hbuild : build paths model .serial = .ok
      ⟨[[⟨1, 30, 60, false⟩, ⟨2, 40, 80, false⟩], [⟨2, 60, 120, false⟩], [⟨0, 70, 140, false⟩]],
        [[⟨2, 70, 140, true⟩], [⟨0, 30, 60, true⟩], [⟨0, 40, 80, true⟩, ⟨1, 60, 120, true⟩]]⟩ := rfl
  exact ⟨_, hbuild, mirrored_of_build hbuild, rfl⟩

end TransferGraph

end Interchange
