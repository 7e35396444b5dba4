import Interchange.Network.Build
import Interchange.Proofs.Checks
import Interchange.Proofs.Version.Active

/-!
# What a network is built from

The two checks of a build that go through lists pass if nothing in them is at fault, and otherwise
report the first fault (`checkCalls_eq_error_iff`, `checkRules_eq_error_iff`). `Network.Built` names
what holds of a network that has been built, and `Network.of_build` says that a build which returns
a network has passed all its checks. Active trips come in the order of their ids, no two of them
share an id (`Description.pairwise_activeTrips`), and in a network that has been built they call at
its stops.
-/

namespace Interchange

/-! ### The checks -/

/-- The check of the calls lets pass what calls at known stops only. -/
theorem checkCalls_eq_ok_iff {stopCount : Nat} {trips : List ScheduledTrip} :
    checkCalls stopCount trips = .ok () ↔ ∀ s ∈ trips, ∀ c ∈ s.calls, c.stop < stopCount := by
  induction trips with
  | nil => simp [checkCalls]
  | cons s trips ih =>
    rw [checkCalls, List.forall_mem_cons, ← ih]
    cases hfind : s.calls.find? fun c => stopCount ≤ c.stop with
    | none =>
      have hknown : ∀ c ∈ s.calls, c.stop < stopCount := by
        simpa using List.find?_eq_none.mp hfind
      exact ⟨fun h => ⟨hknown, h⟩, fun h => h.2⟩
    | some c =>
      have hunknown : stopCount ≤ c.stop := by
        simpa using List.find?_some hfind
      simp only [reduceCtorEq, false_iff]
      rintro ⟨hknown, -⟩
      exact Nat.not_lt.mpr hunknown (hknown c (List.mem_of_find?_eq_some hfind))

/-- Of the unknown stops, the first of the first trip that has any is reported. -/
theorem checkCalls_eq_error_iff {stopCount : Nat} {trips : List ScheduledTrip} {e : NetworkError} :
    checkCalls stopCount trips = .error e ↔
      ∃ i s j c, FirstAt (fun s => ∃ c ∈ s.calls, stopCount ≤ c.stop) trips i s ∧
        FirstAt (fun c => stopCount ≤ c.stop) s.calls j c ∧
          .unknownStop s.trip.id c.stop stopCount = e := by
  have hsearch : checkCalls stopCount trips = .error e ↔
      trips.findSome? (fun s => (s.calls.find? fun c => stopCount ≤ c.stop).map fun c =>
        .unknownStop s.trip.id c.stop stopCount) = some e := by
    induction trips with
    | nil => simp [checkCalls]
    | cons s trips ih =>
      rw [checkCalls, List.findSome?_cons]
      cases s.calls.find? fun c => stopCount ≤ c.stop with
      | none => exact ih
      | some c => simp
  rw [hsearch, findSome?_find?_eq_some_iff]
  simp only [decide_eq_true_eq]

/-- The check of the rules lets pass what is in range. -/
theorem checkRules_eq_ok_iff {cs : List Connection} :
    checkRules cs = .ok () ↔ ∀ c ∈ cs, c.rule.InRange := by
  induction cs with
  | nil => simp [checkRules]
  | cons c cs ih =>
    rw [checkRules, List.forall_mem_cons, ← ih, ← ConnectionRule.validate_eq_ok_iff]
    cases c.rule.validate <;> simp

/-- What is wrong with the rule of a connection. -/
def Connection.fault? (c : Connection) : Option NetworkError :=
  match c.rule.validate with
  | .ok () => none
  | .error fault => some (.invalidRule c.source fault)

private theorem Connection.fault?_eq_some_iff {c : Connection} {e : NetworkError} :
    c.fault? = some e ↔ ∃ fault, c.rule.OutOfRange fault ∧ .invalidRule c.source fault = e := by
  simp only [← ConnectionRule.validate_eq_error_iff, fault?]
  cases c.rule.validate <;> simp

private theorem Connection.isSome_fault?_iff {c : Connection} :
    c.fault?.isSome ↔ ¬ c.rule.InRange := by
  rw [← ConnectionRule.validate_eq_ok_iff, fault?]
  cases c.rule.validate <;> simp

/-- Of the rules out of range, that of the first connection is reported. -/
theorem checkRules_eq_error_iff {cs : List Connection} {e : NetworkError} :
    checkRules cs = .error e ↔
      ∃ i c fault, FirstAt (fun c => ¬ c.rule.InRange) cs i c ∧ c.rule.OutOfRange fault ∧
        .invalidRule c.source fault = e := by
  have hsearch : checkRules cs = .error e ↔ cs.findSome? Connection.fault? = some e := by
    induction cs with
    | nil => simp [checkRules]
    | cons c cs ih =>
      rw [checkRules, List.findSome?_cons, Connection.fault?]
      cases c.rule.validate with
      | ok => exact ih
      | error fault => simp
  rw [hsearch, findSome?_eq_some_iff_firstAt]
  simp only [Connection.isSome_fault?_iff, Connection.fault?_eq_some_iff]
  constructor
  · rintro ⟨i, c, hi, fault, hfault⟩
    exact ⟨i, c, fault, hi, hfault⟩
  · rintro ⟨i, c, fault, hi, hfault⟩
    exact ⟨i, c, hi, fault, hfault⟩

/-! ### Active trips -/

namespace Description

/-- **Active trips ascend.** They come in the order of their ids, and no id comes twice. -/
theorem pairwise_activeTrips (d : Description) (moment : DateTime) :
    (d.activeTrips moment).Pairwise fun a b => compare a.trip.id b.trip.id = .lt := by
  rw [activeTrips, SortedMap.values, List.map_map, List.pairwise_map]
  refine (SortedMap.ascending _).imp_of_mem fun {a b} ha hb hlt => ?_
  -- each version stands under its own id
  have hkey := (of_find?_activeSet (SortedMap.find?_eq_some_iff.mpr ha)).2.1
  have hkey' := (of_find?_activeSet (SortedMap.find?_eq_some_iff.mpr hb)).2.1
  rwa [← hkey, ← hkey'] at hlt

/-- One version of each trip is active. -/
theorem nodup_ids_activeTrips (d : Description) (moment : DateTime) :
    ((d.activeTrips moment).map (·.trip.id)).Nodup := by
  rw [List.Nodup, List.pairwise_map]
  refine (d.pairwise_activeTrips moment).imp fun {a b} hlt heq => ?_
  have hself : compare a.trip.id b.trip.id = .eq := by
    rw [heq]
    exact Std.ReflCmp.compare_self
  rw [hself] at hlt
  cases hlt

end Description

/-! ### Networks -/

namespace Network

/-- What holds of the network that a description makes at a moment. -/
structure Built (d : Description) (settings : Settings) (moment : DateTime) (n : Network) :
    Prop where
  stops : n.stops = d.stops
  graph : ∃ footpaths, d.footpathsByStop = .ok footpaths ∧
    TransferGraph.build footpaths settings.walk.cost settings.transfers = .ok n.graph
  connections : n.connections = .ofList d.connections
  trips : n.trips = d.activeTrips moment
  calls : ∀ s ∈ n.trips, ∀ c ∈ s.calls, c.stop < n.stops.length
  rules : checkRules d.connections = .ok ()
  builtAt : n.builtAt = moment

/-- A network that is returned has passed all checks. -/
theorem of_build {d : Description} {settings : Settings} {moment : DateTime} {n : Network}
    (h : build d settings moment = .ok n) : Built d settings moment n := by
  obtain ⟨footpaths, hfootpaths, h⟩ := bind_eq_ok_iff.mp h
  obtain ⟨graph, hgraph, h⟩ := bind_eq_ok_iff.mp h
  obtain ⟨⟨⟩, hcalls, h⟩ := bind_eq_ok_iff.mp h
  obtain ⟨⟨⟩, hrules, h⟩ := bind_eq_ok_iff.mp h
  obtain rfl := Except.ok.inj h
  have hpaths := mapError_eq_ok_iff.mp hfootpaths
  have hgraph := mapError_eq_ok_iff.mp hgraph
  exact ⟨rfl, ⟨footpaths, hpaths, hgraph⟩, rfl, rfl, checkCalls_eq_ok_iff.mp hcalls, hrules, rfl⟩

end Network

end Interchange
