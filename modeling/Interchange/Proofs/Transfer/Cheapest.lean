import Interchange.Proofs.Transfer.Share
import Mathlib.Data.List.Induction

/-!
# The cheapest footpaths

Of the footpaths from one stop to another the graph keeps one. `FirstCheapest` says which: none of
the priced ones costs less, and those that cost the same come later. The forward pass finds it by
going through the list once, with the edges found so far in the order of their stops; what it
knows about a destination after any part of the list is `Settled` (`settled_edgesFrom`).
-/

namespace Interchange

/-! ### Edges in the order of their stops -/

/-- The stops of the edges ascend, so there is at most one edge to a stop. -/
def Ascending (es : List Edge) : Prop := es.Pairwise fun e f => e.stop < f.stop

/-- The edge to a stop. -/
def edgeTo? (es : List Edge) (stop : StopIndex) : Option Edge := es.find? fun e => e.stop = stop

/-- Of two edges to the same stop, the one that comes later is kept only if it is cheaper. -/
def Edge.orKept (e : Edge) : Option Edge → Edge
  | none => e
  | some f => if e.cost < f.cost then e else f

section Edges

variable {e f : Edge} {es : List Edge} {stop : StopIndex}

theorem Ascending.nodup_stops (h : Ascending es) : (es.map Edge.stop).Nodup :=
  List.pairwise_map.mpr (h.imp Nat.ne_of_lt)

theorem Ascending.eq_of_stop_eq (h : Ascending es) (he : e ∈ es) (hf : f ∈ es)
    (hstop : e.stop = f.stop) : e = f :=
  List.inj_on_of_nodup_map h.nodup_stops he hf hstop

/-- Looking for a stop finds the edge that leads there. -/
theorem Ascending.edgeTo?_eq_some_iff (h : Ascending es) :
    edgeTo? es stop = some e ↔ e ∈ es ∧ e.stop = stop := by
  constructor
  · intro hfind
    exact ⟨List.mem_of_find?_eq_some hfind, by simpa using List.find?_some hfind⟩
  · rintro ⟨he, rfl⟩
    cases hfind : edgeTo? es e.stop with
    | none => simpa using List.find?_eq_none.mp hfind e he
    | some f =>
      have hstop : f.stop = e.stop := by simpa using List.find?_some hfind
      rw [h.eq_of_stop_eq (List.mem_of_find?_eq_some hfind) he hstop]

private theorem edgeTo?_eq_none_of_lt (h : ∀ f ∈ es, stop < f.stop) : edgeTo? es stop = none :=
  List.find?_eq_none.mpr fun f hf => by simpa using Nat.ne_of_gt (h f hf)

private theorem edgeTo?_cons :
    edgeTo? (f :: es) stop = if f.stop = stop then some f else edgeTo? es stop := by
  by_cases h : f.stop = stop <;> simp [edgeTo?, h]

/-! ### Keeping the cheaper edge -/

private theorem mem_of_mem_keepCheaper (h : f ∈ keepCheaper e es) : f = e ∨ f ∈ es := by
  induction es with
  | nil => simpa [keepCheaper] using h
  | cons e' es ih =>
    rw [keepCheaper] at h
    split_ifs at h with hlt heq hcost
    · simpa using h
    · exact (List.mem_cons.mp h).imp_right (List.mem_cons_of_mem _)
    · exact .inr h
    · rcases List.mem_cons.mp h with rfl | h
      · exact .inr List.mem_cons_self
      · exact (ih h).imp_right (List.mem_cons_of_mem _)

theorem ascending_keepCheaper (h : Ascending es) (e : Edge) : Ascending (keepCheaper e es) := by
  induction es with
  | nil => exact List.pairwise_singleton _ _
  | cons e' es ih =>
    obtain ⟨hall, htail⟩ := List.pairwise_cons.mp h
    rw [keepCheaper]
    split_ifs with hlt heq hcost
    · refine List.pairwise_cons.mpr ⟨List.forall_mem_cons.mpr ⟨hlt, fun f hf => ?_⟩, h⟩
      exact Nat.lt_trans hlt (hall f hf)
    · refine List.pairwise_cons.mpr ⟨fun f hf => ?_, htail⟩
      rw [heq]
      exact hall f hf
    · exact h
    · refine List.pairwise_cons.mpr ⟨fun f hf => ?_, ih htail⟩
      rcases mem_of_mem_keepCheaper hf with rfl | hf
      · exact Nat.lt_of_le_of_ne (Nat.le_of_not_lt hlt) (Ne.symm heq)
      · exact hall f hf

/-- Edges to other stops stay as they are. -/
private theorem edgeTo?_keepCheaper_of_ne (hne : stop ≠ e.stop) :
    edgeTo? (keepCheaper e es) stop = edgeTo? es stop := by
  induction es with
  | nil => simp [keepCheaper, edgeTo?, Ne.symm hne]
  | cons e' es ih =>
    rw [keepCheaper]
    split_ifs with hlt heq hcost
    · rw [edgeTo?_cons, if_neg (Ne.symm hne)]
    · rw [edgeTo?_cons, edgeTo?_cons, ← heq, if_neg (Ne.symm hne), if_neg (Ne.symm hne)]
    · rfl
    · rw [edgeTo?_cons, edgeTo?_cons, ih]

/-- To its stop the new edge leads, unless the old one is as cheap. -/
private theorem edgeTo?_keepCheaper_self (h : Ascending es) (e : Edge) :
    edgeTo? (keepCheaper e es) e.stop = some (e.orKept (edgeTo? es e.stop)) := by
  induction es with
  | nil => simp [keepCheaper, edgeTo?, Edge.orKept]
  | cons e' es ih =>
    obtain ⟨hall, htail⟩ := List.pairwise_cons.mp h
    rw [keepCheaper]
    split_ifs with hlt heq hcost
    · have hnone : edgeTo? (e' :: es) e.stop = none := by
        refine edgeTo?_eq_none_of_lt (List.forall_mem_cons.mpr ⟨hlt, fun f hf => ?_⟩)
        exact Nat.lt_trans hlt (hall f hf)
      rw [hnone, edgeTo?_cons, if_pos rfl, Edge.orKept]
    · rw [edgeTo?_cons, edgeTo?_cons, if_pos rfl, if_pos heq.symm]
      exact congrArg some (if_pos hcost).symm
    · rw [edgeTo?_cons, if_pos heq.symm]
      exact congrArg some (if_neg hcost).symm
    · rw [edgeTo?_cons, edgeTo?_cons, if_neg (Ne.symm heq), if_neg (Ne.symm heq), ih htail]

end Edges

/-! ### The first of the cheapest -/

/-- The footpath at a position leads to the stop, at the given price. -/
def Offers (model : CostModel) (paths : List Footpath) (stop : StopIndex) (i : Nat)
    (price : TransferCost) : Prop :=
  ∃ path, paths[i]? = some path ∧ path.target = stop ∧ model path .forward = some price

/-- **The first of the cheapest.** The position `i` has an offer, no offer costs less, and no
earlier one costs the same. -/
structure FirstCheapest (offers : Nat → TransferCost → Prop) (i : Nat) (price : TransferCost) :
    Prop where
  offered : offers i price
  minimal : ∀ j other, offers j other → price.cost ≤ other.cost
  first : ∀ j other, offers j other → other.cost = price.cost → i ≤ j

/-- The edge that is to be kept of a list of offers. -/
def Settled (offers : Nat → TransferCost → Prop) (stop : StopIndex) : Option Edge → Prop
  | none => ∀ i price, ¬ offers i price
  | some e => ∃ i price, FirstCheapest offers i price ∧ e = .forwardTo stop price

section Offers

variable {model : CostModel} {paths : List Footpath} {path : Footpath} {stop : StopIndex}
  {price : TransferCost}

private theorem Offers.lt_length {i : Nat} (h : Offers model paths stop i price) :
    i < paths.length := by
  obtain ⟨path, hpath, -⟩ := h
  exact (List.getElem?_eq_some_iff.mp hpath).1

theorem exists_offers_iff :
    (∃ i, Offers model paths stop i price) ↔
      ∃ path ∈ paths, path.target = stop ∧ model path .forward = some price := by
  constructor
  · rintro ⟨i, path, hpath, hoffer⟩
    exact ⟨path, List.mem_of_getElem? hpath, hoffer⟩
  · rintro ⟨path, hmem, hoffer⟩
    obtain ⟨i, hpath⟩ := List.mem_iff_getElem?.mp hmem
    exact ⟨i, path, hpath, hoffer⟩

private theorem offers_concat_iff {i : Nat} :
    Offers model (paths ++ [path]) stop i price ↔
      Offers model paths stop i price ∨
        i = paths.length ∧ path.target = stop ∧ model path .forward = some price := by
  constructor
  · rintro ⟨p, hp, hoffer⟩
    rw [List.getElem?_append] at hp
    split_ifs at hp with hi
    · exact .inl ⟨p, hp, hoffer⟩
    · obtain ⟨hlast, rfl⟩ := List.getElem?_eq_some_iff.mp hp
      simp only [List.length_singleton] at hlast
      exact .inr ⟨by omega, by simpa using hoffer⟩
  · rintro (hold | ⟨rfl, hoffer⟩)
    · have hi := hold.lt_length
      obtain ⟨p, hp, hoffer⟩ := hold
      exact ⟨p, (List.getElem?_append_left hi).trans hp, hoffer⟩
    · exact ⟨path, List.getElem?_concat_length, hoffer⟩

/-- A footpath without a price, or to another stop, is no offer. -/
private theorem offers_concat_of_ne (h : path.target = stop → model path .forward = none) :
    Offers model (paths ++ [path]) stop = Offers model paths stop := by
  funext i price
  refine propext (offers_concat_iff.trans (or_iff_left ?_))
  rintro ⟨-, htarget, hprice⟩
  rw [h htarget] at hprice
  cases hprice

end Offers

/-- One more offer at the end is kept only if it costs less than what was kept before. -/
private theorem Settled.concat {offers offers' : Nat → TransferCost → Prop} {stop : StopIndex}
    {kept : Option Edge} {n : Nat} {price : TransferCost} (h : Settled offers stop kept)
    (hbefore : ∀ i other, offers i other → i < n)
    (hoffers : ∀ i other, offers' i other ↔ offers i other ∨ i = n ∧ other = price) :
    Settled offers' stop (some ((Edge.forwardTo stop price).orKept kept)) := by
  have hnew : offers' n price := (hoffers n price).mpr (.inr ⟨rfl, rfl⟩)
  cases kept with
  | none =>
    -- there is no other offer
    have honly : ∀ j other, offers' j other → j = n ∧ other = price := fun j other hj =>
      ((hoffers j other).mp hj).resolve_left (h j other)
    refine ⟨n, price, ⟨hnew, fun j other hj => ?_, fun j other hj _ => ?_⟩, rfl⟩
    · exact Int.le_of_eq (by rw [(honly j other hj).2])
    · exact Nat.le_of_eq (honly j other hj).1.symm
  | some e =>
    obtain ⟨i, old, hold, rfl⟩ := h
    by_cases hcost : price.cost < old.cost
    · refine ⟨n, price, ⟨hnew, fun j other hj => ?_, fun j other hj hsame => ?_⟩, if_pos hcost⟩
      · rcases (hoffers j other).mp hj with hj | ⟨-, rfl⟩
        · exact Int.le_of_lt (Int.lt_of_lt_of_le hcost (hold.minimal j other hj))
        · exact Int.le_refl _
      · rcases (hoffers j other).mp hj with hj | ⟨rfl, -⟩
        · have := hold.minimal j other hj
          omega
        · exact Nat.le_refl _
    · refine ⟨i, old, ⟨(hoffers i old).mpr (.inl hold.offered), fun j other hj => ?_,
        fun j other hj hsame => ?_⟩, if_neg hcost⟩
      · rcases (hoffers j other).mp hj with hj | ⟨-, rfl⟩
        · exact hold.minimal j other hj
        · exact Int.not_lt.mp hcost
      · rcases (hoffers j other).mp hj with hj | ⟨rfl, -⟩
        · exact hold.first j other hj hsame
        · exact Nat.le_of_lt (hbefore i old hold.offered)

/-! ### The edges that leave a stop -/

section EdgesFrom

variable {model : CostModel} {paths paths' : List Footpath} {e : Edge} {es : List Edge}

/-- The last footpath is weighed against the edges of those before it. -/
private theorem edgesFrom_concat (model : CostModel) (paths : List Footpath) (path : Footpath) :
    edgesFrom model (paths ++ [path]) =
      match model path .forward with
      | some price => keepCheaper (.forwardTo path.target price) (edgesFrom model paths)
      | none => edgesFrom model paths := by
  rw [edgesFrom, List.foldl_append]
  rfl

theorem ascending_edgesFrom (model : CostModel) (paths : List Footpath) :
    Ascending (edgesFrom model paths) := by
  induction paths using List.reverseRecOn with
  | nil => exact List.Pairwise.nil
  | append_singleton paths path ih =>
    rw [edgesFrom_concat]
    split
    · exact ascending_keepCheaper ih _
    · exact ih

/-- **One destination at a time.** The edge to a stop is settled by the offers for that stop. -/
theorem settled_edgesFrom (model : CostModel) (paths : List Footpath) (stop : StopIndex) :
    Settled (Offers model paths stop) stop (edgeTo? (edgesFrom model paths) stop) := by
  induction paths using List.reverseRecOn with
  | nil =>
    rintro i price ⟨path, hpath, -⟩
    cases hpath
  | append_singleton paths path ih =>
    rw [edgesFrom_concat]
    cases hprice : model path .forward with
    | none =>
      rw [offers_concat_of_ne fun _ => hprice]
      exact ih
    | some price =>
      by_cases hstop : stop = path.target
      · subst hstop
        have hkeep := edgeTo?_keepCheaper_self (ascending_edgesFrom model paths)
          (.forwardTo path.target price)
        -- the last footpath is one more offer, behind all the others
        have hoffers : ∀ i other, Offers model (paths ++ [path]) path.target i other ↔
            Offers model paths path.target i other ∨ i = paths.length ∧ other = price := by
          intro i other
          rw [offers_concat_iff, hprice, Option.some.injEq, eq_comm (a := price)]
          simp
        exact hkeep.symm ▸ ih.concat (fun i other => Offers.lt_length) hoffers
      · have hkeep : edgeTo? (keepCheaper (.forwardTo path.target price) (edgesFrom model paths))
            stop = edgeTo? (edgesFrom model paths) stop := edgeTo?_keepCheaper_of_ne hstop
        rw [offers_concat_of_ne fun heq => absurd heq.symm hstop]
        exact hkeep.symm ▸ ih

/-- An edge is the first of the cheapest offers for its stop. -/
theorem firstCheapest_of_mem_edgesFrom (he : e ∈ edgesFrom model paths) :
    ∃ i price, FirstCheapest (Offers model paths e.stop) i price ∧ e = .forwardTo e.stop price := by
  have hsettled := settled_edgesFrom model paths e.stop
  rwa [(ascending_edgesFrom model paths).edgeTo?_eq_some_iff.mpr ⟨he, rfl⟩] at hsettled

/-- There is an edge to every stop that has an offer. -/
theorem exists_mem_edgesFrom {stop : StopIndex} {i : Nat} {price : TransferCost}
    (h : Offers model paths stop i price) : ∃ e ∈ edgesFrom model paths, e.stop = stop := by
  have hsettled := settled_edgesFrom model paths stop
  cases hedge : edgeTo? (edgesFrom model paths) stop with
  | none =>
    rw [hedge] at hsettled
    exact absurd h (hsettled i price)
  | some e => exact ⟨e, (ascending_edgesFrom model paths).edgeTo?_eq_some_iff.mp hedge⟩

/-- A stop is reached by an edge if a priced footpath leads there. -/
theorem exists_mem_edgesFrom_iff {stop : StopIndex} :
    (∃ e ∈ edgesFrom model paths, e.stop = stop) ↔
      ∃ path ∈ paths, path.target = stop ∧ (model path .forward).isSome := by
  constructor
  · rintro ⟨e, he, rfl⟩
    obtain ⟨i, price, hfirst, -⟩ := firstCheapest_of_mem_edgesFrom he
    obtain ⟨path, hmem, htarget, hprice⟩ := exists_offers_iff.mp ⟨i, hfirst.offered⟩
    exact ⟨path, hmem, htarget, Option.isSome_iff_exists.mpr ⟨price, hprice⟩⟩
  · rintro ⟨path, hmem, htarget, hpriced⟩
    obtain ⟨price, hprice⟩ := Option.isSome_iff_exists.mp hpriced
    obtain ⟨i, hoffer⟩ := exists_offers_iff.mpr ⟨path, hmem, htarget, hprice⟩
    exact exists_mem_edgesFrom hoffer

/-! ### Costs do not depend on the order -/

/-- The destinations of edges with what it costs to get there. -/
def costs (es : List Edge) : List (StopIndex × Int) := es.map fun e => (e.stop, e.cost)

/-- The least that an offer for the stop costs. -/
def LeastCost (model : CostModel) (paths : List Footpath) (stop : StopIndex) (cost : Int) : Prop :=
  (∃ path ∈ paths, path.target = stop ∧ ∃ price, model path .forward = some price ∧
    price.cost = cost) ∧
  ∀ path ∈ paths, path.target = stop → ∀ price, model path .forward = some price →
    cost ≤ price.cost

/-- The cost of an edge is the least that is offered. -/
private theorem leastCost_of_mem_edgesFrom (he : e ∈ edgesFrom model paths) :
    LeastCost model paths e.stop e.cost := by
  obtain ⟨i, price, hfirst, hedge⟩ := firstCheapest_of_mem_edgesFrom he
  have hcost : e.cost = price.cost := congrArg Edge.cost hedge
  rw [hcost]
  constructor
  · obtain ⟨path, hmem, htarget, hprice⟩ := exists_offers_iff.mp ⟨i, hfirst.offered⟩
    exact ⟨path, hmem, htarget, price, hprice, rfl⟩
  · intro path hmem htarget other hother
    obtain ⟨j, hoffer⟩ := exists_offers_iff.mpr ⟨path, hmem, htarget, hother⟩
    exact hfirst.minimal j other hoffer

private theorem mem_costs_edgesFrom_iff {stop : StopIndex} {cost : Int} :
    (stop, cost) ∈ costs (edgesFrom model paths) ↔ LeastCost model paths stop cost := by
  constructor
  · intro h
    obtain ⟨e, he, heq⟩ := List.mem_map.mp h
    obtain ⟨rfl, rfl⟩ := Prod.mk.inj heq
    exact leastCost_of_mem_edgesFrom he
  · rintro ⟨⟨path, hmem, htarget, price, hprice, rfl⟩, hleast⟩
    obtain ⟨i, hoffer⟩ := exists_offers_iff.mpr ⟨path, hmem, htarget, hprice⟩
    obtain ⟨e, he, rfl⟩ := exists_mem_edgesFrom hoffer
    obtain ⟨⟨path', hmem', htarget', price', hprice', hcost⟩, hleast'⟩ :=
      leastCost_of_mem_edgesFrom he
    -- either of the two is least
    have hle := hleast' path hmem htarget price hprice
    have hge := hleast path' hmem' htarget' price' hprice'
    rw [hcost] at hge
    exact List.mem_map.mpr ⟨e, he, by rw [Int.le_antisymm hle hge]⟩

private theorem pairwise_costs (h : Ascending es) : (costs es).Pairwise fun a b => a.1 < b.1 :=
  List.pairwise_map.mpr h

/-- **Any order will do.** The costs of the edges depend only on which footpaths there are. -/
theorem costs_edgesFrom_of_perm (h : paths.Perm paths') :
    costs (edgesFrom model paths) = costs (edgesFrom model paths') := by
  have hasc := pairwise_costs (ascending_edgesFrom model paths)
  have hasc' := pairwise_costs (ascending_edgesFrom model paths')
  have hmem : ∀ x, x ∈ costs (edgesFrom model paths) ↔ x ∈ costs (edgesFrom model paths') := by
    rintro ⟨stop, cost⟩
    rw [mem_costs_edgesFrom_iff, mem_costs_edgesFrom_iff, LeastCost, LeastCost]
    simp only [h.mem_iff]
  have hne : ∀ {a b : StopIndex × Int}, a.1 < b.1 → a ≠ b := by
    rintro a _ hlt rfl
    exact Nat.lt_irrefl _ hlt
  have hperm := (List.perm_ext_iff_of_nodup (hasc.imp hne) (hasc'.imp hne)).mpr hmem
  exact hperm.eq_of_pairwise (fun a b _ _ hab hba => absurd hab (Nat.lt_asymm hba)) hasc hasc'

end EdgesFrom

/-! ### The graph -/

namespace TransferGraph

variable {paths : List (List Footpath)} {model : CostModel} {settings : BuildSettings}
  {g : TransferGraph}

/-- The edges that leave a stop are made of its footpaths alone. -/
theorem edgesLeaving_eq (h : build paths model settings = .ok g) (stop : StopIndex) :
    g.edgesLeaving stop = (paths[stop]?.map (edgesFrom model)).getD [] := by
  obtain ⟨-, rfl⟩ := build_eq_ok_iff.mp h
  rw [edgesLeaving, forwardPass, List.getD_eq_getElem?_getD, List.getElem?_map]

/-- **The edges that leave a stop.** If all footpaths lead to stops, a graph is built. From each
stop its edges ascend by destination; there is one to every destination for which a footpath has a
price, and to no other; and it has duration and cost of the first footpath in the list among those
that cost least. The order of the footpaths does not matter for destinations and costs. -/
theorem edgesLeaving_firstCheapest (model : CostModel) (settings : BuildSettings)
    (hstops : ∀ ps ∈ paths, ∀ path ∈ ps, path.target < paths.length) :
    ∃ g, build paths model settings = .ok g ∧ ∀ a ps, paths[a]? = some ps →
      (g.edgesLeaving a).Pairwise (fun e f => e.stop < f.stop) ∧
      (∀ b, (∃ e ∈ g.edgesLeaving a, e.stop = b) ↔
        ∃ path ∈ ps, path.target = b ∧ (model path .forward).isSome) ∧
      (∀ e ∈ g.edgesLeaving a, ∃ i price, FirstCheapest (Offers model ps e.stop) i price ∧
        e = ⟨e.stop, price.duration, price.cost, false⟩) ∧
      ∀ ps', ps'.Perm ps → ∃ g', build (paths.set a ps') model settings = .ok g' ∧
        costs (g'.edgesLeaving a) = costs (g.edgesLeaving a) := by
  obtain ⟨g, hbuild⟩ := exists_build model settings hstops
  refine ⟨g, hbuild, fun a ps hps => ?_⟩
  rw [edgesLeaving_eq hbuild, hps]
  refine ⟨ascending_edgesFrom model ps, fun b => exists_mem_edgesFrom_iff,
    fun e => firstCheapest_of_mem_edgesFrom, fun ps' hperm => ?_⟩
  -- the reordered footpaths lead to the same stops, so they make a graph too
  have hstops' : ∀ qs ∈ paths.set a ps', ∀ path ∈ qs, path.target < (paths.set a ps').length := by
    intro qs hqs path hpath
    rw [List.length_set]
    rcases List.mem_or_eq_of_mem_set hqs with hold | rfl
    · exact hstops qs hold path hpath
    · exact hstops ps (List.mem_of_getElem? hps) path (hperm.mem_iff.mp hpath)
  obtain ⟨g', hbuild'⟩ := exists_build model settings hstops'
  refine ⟨g', hbuild', ?_⟩
  rw [edgesLeaving_eq hbuild', List.getElem?_set_self (List.getElem?_eq_some_iff.mp hps).1]
  exact costs_edgesFrom_of_perm hperm

/-- Three ways lead to stop 1. Two of them cost the same, and the longer of these comes first. -/
theorem edgesLeaving_firstCheapest_tie :
    let way (duration : Nat) : Footpath := { target := 1, distance := 0, duration := some duration }
    let ways := [.flat 0 0, way 70, way 57, way 51]
    let model : CostModel := fun path _ => path.duration.map fun d => ⟨d, d / 10⟩
    (∀ ps ∈ [ways, []], ∀ path ∈ ps, path.target < 2) ∧
      ∃ g, build [ways, []] model ⟨true, 2⟩ = .ok g ∧
        g.edgesLeaving 0 = [⟨1, 57, 5, false⟩] ∧
        ∃ i price, FirstCheapest (Offers model ways 1) i price ∧
          (⟨1, 57, 5, false⟩ : Edge) = ⟨1, price.duration, price.cost, false⟩ := by
  intro way ways model
  have hstops : ∀ ps ∈ [ways, []], ∀ path ∈ ps, path.target < 2 := by
    simp [ways, way, Footpath.flat]
  obtain ⟨g, hbuild, hedges⟩ := edgesLeaving_firstCheapest model ⟨true, 2⟩ hstops
  have hleaving : g.edgesLeaving 0 = [⟨1, 57, 5, false⟩] := by
    rw [edgesLeaving_eq hbuild]
    rfl
  refine ⟨hstops, g, hbuild, hleaving, (hedges 0 ways rfl).2.2.1 ⟨1, 57, 5, false⟩ ?_⟩
  rw [hleaving]
  exact List.mem_singleton_self _

end TransferGraph

end Interchange
