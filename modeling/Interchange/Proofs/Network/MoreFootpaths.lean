import Interchange.Proofs.Network.Neighbors
import Interchange.Proofs.Transfer.Turned

/-!
# More footpaths

From every stop the graph keeps the cheapest offer for each destination. If every offer has one in
another list that costs no more (`Covers`), that list has no fewer edges and none that costs more
(`exists_mem_edgesFrom_of_covers`). Turning the edges round changes neither, so the whole graph is
at least as good (`TransferGraph.dominates_of_supplements`).

This is why it never hurts to join stops that are near each other
(`Description.supplements_footpathsByStop`). A wheelchair does nothing but take away the footpaths
with steps (`WalkModel.cost_wheelchair`), so without it a rider gets everywhere at least as cheaply
(`WalkModel.supplements_of_wheelchair`).
-/

namespace Interchange

open TransferGraph

/-! ### Offers that cost no more -/

/-- **Covering.** For every offer of the first list the second has one for the same stop that costs
no more. -/
def Covers (model model' : CostModel) (paths paths' : List Footpath) : Prop :=
  ∀ stop i price, Offers model paths stop i price →
    ∃ j price', Offers model' paths' stop j price' ∧ price'.cost ≤ price.cost

section Covers

variable {model model' : CostModel} {paths paths' : List Footpath} {e : Edge}

/-- Under one model, more footpaths cover fewer. -/
private theorem covers_of_subset (h : paths ⊆ paths') : Covers model model paths paths' := by
  intro stop i price hoffer
  obtain ⟨path, hmem, hpath⟩ := exists_offers_iff.mp ⟨i, hoffer⟩
  obtain ⟨j, hoffer'⟩ := exists_offers_iff.mpr ⟨path, h hmem, hpath⟩
  exact ⟨j, price, hoffer', Int.le_refl _⟩

/-- A model that drops fewer footpaths, and prices the others alike. -/
private theorem covers_of_model
    (h : ∀ path price, model path .forward = some price → model' path .forward = some price) :
    Covers model model' paths paths := by
  rintro stop i price ⟨path, hpath, htarget, hprice⟩
  exact ⟨i, price, ⟨path, hpath, htarget, h path price hprice⟩, Int.le_refl _⟩

/-- The cheapest offer costs no more than the one that covers another. -/
theorem exists_mem_edgesFrom_of_covers (h : Covers model model' paths paths')
    (he : e ∈ edgesFrom model paths) :
    ∃ e' ∈ edgesFrom model' paths', e'.stop = e.stop ∧ e'.cost ≤ e.cost := by
  obtain ⟨i, price, hfirst, hedge⟩ := firstCheapest_of_mem_edgesFrom he
  obtain ⟨j, price', hoffer, hcost⟩ := h _ _ _ hfirst.offered
  obtain ⟨e', he', hstop⟩ := exists_mem_edgesFrom hoffer
  obtain ⟨k, least, hleast, hedge'⟩ := firstCheapest_of_mem_edgesFrom he'
  rw [hstop] at hleast
  refine ⟨e', he', hstop, ?_⟩
  calc e'.cost = least.cost := congrArg Edge.cost hedge'
    _ ≤ price'.cost := hleast.minimal j price' hoffer
    _ ≤ price.cost := hcost
    _ = e.cost := (congrArg Edge.cost hedge).symm

/-- There is at most one edge to each stop, so the edges can be counted by their stops. -/
private theorem length_edgesFrom_le (h : Covers model model' paths paths') :
    (edgesFrom model paths).length ≤ (edgesFrom model' paths').length := by
  have hstops : (edgesFrom model paths).map Edge.stop ⊆
      (edgesFrom model' paths').map Edge.stop := by
    intro stop hstop
    obtain ⟨e, he, rfl⟩ := List.mem_map.mp hstop
    obtain ⟨e', he', hsame, -⟩ := exists_mem_edgesFrom_of_covers h he
    exact List.mem_map.mpr ⟨e', he', hsame⟩
  have hnodup := (ascending_edgesFrom model paths).nodup_stops
  simpa using hnodup.length_le_of_subset hstops

end Covers

/-- **More footpaths.** The footpaths of the same number of stops, all of which lead to stops. What
is offered at a stop in the first lists is covered by what is offered there in the second. -/
structure Supplements (model model' : CostModel) (paths paths' : List (List Footpath)) : Prop where
  stops : ∀ ps ∈ paths, ∀ path ∈ ps, path.target < paths.length
  stops' : ∀ ps ∈ paths', ∀ path ∈ ps, path.target < paths'.length
  covers : List.Forall₂ (Covers model model') paths paths'

/-! ### Graphs -/

namespace TransferGraph

/-- **Dominating.** Where the first graph has an edge, in either direction, the second has one that
costs no more, and it has no fewer edges. -/
structure Dominates (g' g : TransferGraph) : Prop where
  edges : ∀ direction stop, ∀ e ∈ g.edges stop direction,
    ∃ e' ∈ g'.edges stop direction, e'.stop = e.stop ∧ e'.cost ≤ e.cost
  count : g.edgeCount ≤ g'.edgeCount

section Dominates

variable {model model' : CostModel} {paths paths' : List (List Footpath)}
  {settings settings' : BuildSettings} {g g' : TransferGraph}

/-- An edge of the graph of fewer footpaths has a counterpart among more, at no greater cost. -/
private theorem exists_mem_edgesLeaving_of_covers (h : build paths model settings = .ok g)
    (h' : build paths' model' settings' = .ok g')
    (hcovers : List.Forall₂ (Covers model model') paths paths') {stop : StopIndex} {e : Edge}
    (he : e ∈ g.edgesLeaving stop) :
    ∃ e' ∈ g'.edgesLeaving stop, e'.stop = e.stop ∧ e'.cost ≤ e.cost := by
  rw [edgesLeaving_eq h] at he
  rw [edgesLeaving_eq h']
  cases hps : paths[stop]? with
  | none =>
    rw [hps] at he
    cases he
  | some ps =>
    rw [hps] at he
    obtain ⟨hlt, rfl⟩ := List.getElem?_eq_some_iff.mp hps
    have hlt' : stop < paths'.length := hcovers.length_eq ▸ hlt
    rw [List.getElem?_eq_getElem hlt']
    exact exists_mem_edgesFrom_of_covers (hcovers.get hlt hlt') he

/-- An edge that arrives is one that leaves, turned. -/
private theorem exists_mem_edgesArriving_of_covers (h : build paths model settings = .ok g)
    (h' : build paths' model' settings' = .ok g')
    (hcovers : List.Forall₂ (Covers model model') paths paths') {stop : StopIndex} {e : Edge}
    (he : e ∈ g.edgesArriving stop) :
    ∃ e' ∈ g'.edgesArriving stop, e'.stop = e.stop ∧ e'.cost ≤ e.cost := by
  obtain ⟨origin, f, hf, hstop, rfl⟩ := (mem_edgesArriving_iff h).mp he
  obtain ⟨f', hf', hstop', hcost⟩ := exists_mem_edgesLeaving_of_covers h h' hcovers hf
  exact ⟨f'.turned origin,
    (mem_edgesArriving_iff h').mpr ⟨origin, f', hf', hstop'.trans hstop, rfl⟩, rfl, hcost⟩

private theorem edgeCount_le_of_covers (h : build paths model settings = .ok g)
    (h' : build paths' model' settings' = .ok g')
    (hcovers : List.Forall₂ (Covers model model') paths paths') : g.edgeCount ≤ g'.edgeCount := by
  obtain ⟨-, rfl⟩ := build_eq_ok_iff.mp h
  obtain ⟨-, rfl⟩ := build_eq_ok_iff.mp h'
  simp only [edgeCount, forwardPass]
  clear h h'
  induction hcovers with
  | nil => exact Nat.le_refl _
  | cons hps _ ih =>
    simp only [List.map_cons, List.flatten_cons, List.length_append]
    exact Nat.add_le_add (length_edgesFrom_le hps) ih

/-- More footpaths make a better graph, however the two are built. -/
theorem dominates_of_supplements (settings settings' : BuildSettings)
    (h : Supplements model model' paths paths') :
    ∃ g g', build paths model settings = .ok g ∧ build paths' model' settings' = .ok g' ∧
      g'.Dominates g := by
  obtain ⟨g, hg⟩ := exists_build model settings h.stops
  obtain ⟨g', hg'⟩ := exists_build model' settings' h.stops'
  refine ⟨g, g', hg, hg', fun direction stop e he => ?_, edgeCount_le_of_covers hg hg' h.covers⟩
  cases direction with
  | forward => exact exists_mem_edgesLeaving_of_covers hg hg' h.covers he
  | reverse => exact exists_mem_edgesArriving_of_covers hg hg' h.covers he

end Dominates

end TransferGraph

/-! ### Without a wheelchair -/

/-- A wheelchair takes away the footpaths with steps. The others cost the same. -/
theorem WalkModel.cost_wheelchair (m : WalkModel) (path : Footpath) (direction : SearchDirection) :
    { m with wheelchair := true }.cost path direction =
      if path.stepFree then { m with wheelchair := false }.cost path direction else none := by
  cases hsteps : path.stepFree with
  | false => simp [cost, hsteps]
  | true =>
    simp only [cost, hsteps]
    rfl

/-- Without a wheelchair every footpath can be walked that can be with one. -/
theorem WalkModel.supplements_of_wheelchair (m : WalkModel) {paths : List (List Footpath)}
    (h : ∀ ps ∈ paths, ∀ path ∈ ps, path.target < paths.length) :
    Supplements { m with wheelchair := true }.cost { m with wheelchair := false }.cost
      paths paths := by
  refine ⟨h, h, List.forall₂_same.mpr fun ps _ => covers_of_model fun path price hprice => ?_⟩
  rw [cost_wheelchair] at hprice
  split_ifs at hprice
  exact hprice

/-! ### With stops nearby -/

namespace Description

variable {d : Description} {paths : List (List Footpath)}

private theorem forall₂_subset_footpathsByStop (h : d.footpathsByStop = .ok paths) :
    List.Forall₂ (· ⊆ ·) d.describedFootpaths paths := by
  obtain ⟨-, rfl⟩ := footpathsByStop_eq_ok_iff.mp h
  refine List.forall₂_iff_get.mpr ⟨(length_foldl_addNearPair _ _).symm, fun i hi hi' => ?_⟩
  have hget := getElem?_foldl_addNearPair d.nearStops d.describedFootpaths i
  rw [List.getElem?_eq_getElem hi, List.getElem?_eq_getElem hi', Option.map_some,
    Option.some.injEq] at hget
  rw [List.get_eq_getElem, List.get_eq_getElem, hget]
  exact List.subset_append_left _ _

/-- Footpaths to stops nearby are offers besides those of the description, and lead to stops. -/
theorem supplements_footpathsByStop (model : CostModel) (h : d.footpathsByStop = .ok paths)
    (hstops : ∀ ps ∈ d.footpaths, ∀ path ∈ ps, path.target < d.stops.length) :
    Supplements model model d.describedFootpaths paths := by
  obtain ⟨hlists, -⟩ := footpathsByStop_eq_ok_iff.mp h
  have hdescribed := (firstStray_describedFootpaths_eq_none_iff hlists).mpr hstops
  have hpaths := (firstStray_footpathsByStop h).trans hdescribed
  exact ⟨firstStray_eq_none_iff.mp hdescribed, firstStray_eq_none_iff.mp hpaths,
    (forall₂_subset_footpathsByStop h).imp fun _ _ => covers_of_subset⟩

/-- **More footpaths never hurt.** If every offer at a stop is covered by another, then the graph of
the others has an edge wherever the first has one, in both directions and at no higher cost, and no
fewer edges. What a rider can use in a wheelchair is covered by what can be used without it, and
what a description offers is covered when stops nearby are joined. -/
theorem more_footpaths_never_hurt :
    (∀ model model' paths paths' settings settings', Supplements model model' paths paths' →
      ∃ g g', build paths model settings = .ok g ∧ build paths' model' settings' = .ok g' ∧
        g'.Dominates g) ∧
    (∀ (m : WalkModel) (paths : List (List Footpath)),
      (∀ ps ∈ paths, ∀ path ∈ ps, path.target < paths.length) →
        Supplements { m with wheelchair := true }.cost { m with wheelchair := false }.cost
          paths paths) ∧
    ∀ (model : CostModel) (d : Description) (paths : List (List Footpath)),
      (∀ ps ∈ d.footpaths, ∀ path ∈ ps, path.target < d.stops.length) →
        d.footpathsByStop = .ok paths → Supplements model model d.describedFootpaths paths :=
  ⟨fun _ _ _ _ settings settings' => dominates_of_supplements settings settings',
    fun m _ => m.supplements_of_wheelchair,
    fun model _ _ hstops h => supplements_footpathsByStop model h hstops⟩

/-- Two ways lead to stop 1, of which the shorter has steps. -/
theorem more_footpaths_never_hurt_steps :
    let stairs : Footpath := { target := 1, distance := 40, duration := some 30, stepFree := false }
    let ramp : Footpath := { target := 1, distance := 90, duration := some 50 }
    let m : WalkModel := {}
    let d : Description :=
      { stops := [⟨⟨"F", "A", by decide⟩, "Central", ⟨59.911, 10.75⟩⟩,
          ⟨⟨"F", "B", by decide⟩, "Opera", ⟨59.9115, 10.75⟩⟩]
        footpaths := [[ramp, stairs]]
        maxWalk := some 500 }
    ∃ g g', build d.describedFootpaths { m with wheelchair := true }.cost .serial = .ok g ∧
      build d.describedFootpaths { m with wheelchair := false }.cost ⟨true, 2⟩ = .ok g' ∧
      g'.Dominates g ∧ g.edgesLeaving 0 = [⟨1, 50, m.generalizedCost 50, false⟩] ∧
      (∃ e ∈ g'.edgesLeaving 0, e.stop = 1 ∧ e.cost ≤ m.generalizedCost 50) ∧
      ∃ paths, d.footpathsByStop = .ok paths ∧
        Supplements m.cost m.cost d.describedFootpaths paths := by
  intro stairs ramp m d
  have hstops : ∀ ps ∈ d.footpaths, ∀ path ∈ ps, path.target < d.stops.length := by
    simp [d, stairs, ramp]
  have hdescribed : ∀ ps ∈ d.describedFootpaths, ∀ path ∈ ps,
      path.target < d.describedFootpaths.length := by
    simp [describedFootpaths, d, stairs, ramp]
  obtain ⟨hdominates, hwheelchair, hnearby⟩ := more_footpaths_never_hurt
  obtain ⟨g, g', hg, hg', hbetter⟩ :=
    hdominates _ _ _ _ .serial ⟨true, 2⟩ (hwheelchair m d.describedFootpaths hdescribed)
  have hramp : g.edgesLeaving 0 = [⟨1, 50, m.generalizedCost 50, false⟩] := by
    rw [edgesLeaving_eq hg]
    rfl
  have hpaths : d.footpathsByStop = .ok _ := footpathsByStop_eq_ok_iff.mpr ⟨by decide, rfl⟩
  refine ⟨g, g', hg, hg', hbetter, hramp, ?_, _, hpaths, hnearby m.cost d _ hstops hpaths⟩
  have hmem : ⟨1, 50, m.generalizedCost 50, false⟩ ∈ g.edgesLeaving 0 := by
    rw [hramp]
    exact List.mem_singleton_self _
  exact hbetter.edges .forward 0 _ hmem

end Description

end Interchange
