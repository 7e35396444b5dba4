import Interchange.Proofs.Connection.Index
import Interchange.Proofs.Network.Build
import Interchange.Proofs.Network.Footpaths
import Interchange.Proofs.Timetable.Seed
import Interchange.Proofs.Transfer.Turned
import Interchange.Proofs.Version.Selection

/-!
# Consistent descriptions

A description is *consistent* at a moment if its lists of footpaths fit its stops, its footpaths
and the trips that are active lead to stops, and the rules of its connections are in range
(`Description.Consistent`). Exactly these make a network. Of any other description `Refused` says
what is reported: the first condition that fails, and the first offender against it. What holds of
the networks that come out is collected in `Network.WellBuilt`.

The conditions speak of different parts of a description: all footpaths that are described but none
of those to stops nearby, only the versions of trips that are active, and all connections, whether
they are forbidden or not.
-/

namespace Interchange

/-! ### Conditions -/

namespace Description

/-- The trip is active: the first of the latest versions with its id that are valid. -/
def Active (d : Description) (moment : DateTime) (s : ScheduledTrip) : Prop :=
  ∃ i e, FirstGreatest (Competes (fun e => e.value.trip.id) moment s.trip.id) Versioned.version
    d.trips i e ∧ e.value = s

/-- There are no more lists of footpaths than stops. -/
def ListsFit (d : Description) : Prop := d.footpaths.length ≤ d.stops.length

/-- Every described footpath leads to a stop. -/
def TargetsKnown (d : Description) : Prop :=
  ∀ ps ∈ d.footpaths, ∀ path ∈ ps, path.target < d.stops.length

/-- Every active trip calls at stops. -/
def CallsKnown (d : Description) (moment : DateTime) : Prop :=
  ∀ s, d.Active moment s → ∀ c ∈ s.calls, c.stop < d.stops.length

/-- The rule of every connection is in range. -/
def RulesInRange (d : Description) : Prop := ∀ c ∈ d.connections, c.rule.InRange

/-- **Consistency.** What a description needs to make a network. -/
structure Consistent (d : Description) (moment : DateTime) : Prop where
  lists : d.ListsFit
  targets : d.TargetsKnown
  calls : d.CallsKnown moment
  rules : d.RulesInRange

/-- **Refusal.** The error is about the first condition that fails, and names the first offender:
the first footpath of the first list that has a stray one, the first call of the trip with the
smallest id that has one at no stop, the first connection with a rule out of range. -/
inductive Refused (d : Description) (moment : DateTime) : NetworkError → Prop where
  | footpathLists : ¬ d.ListsFit →
      Refused d moment (.footpathLists ⟨d.footpaths.length, d.stops.length⟩)
  | graph {origin j : Nat} {ps : List Footpath} {path : Footpath} : d.ListsFit →
      FirstAt (fun ps => ∃ path ∈ ps, d.stops.length ≤ path.target) d.footpaths origin ps →
      FirstAt (fun path => d.stops.length ≤ path.target) ps j path →
      Refused d moment (.graph ⟨origin, path.target, d.stops.length⟩)
  | unknownStop {s : ScheduledTrip} {j : Nat} {c : Call} : d.ListsFit → d.TargetsKnown →
      d.Active moment s →
      (∀ s', d.Active moment s' → (∃ c ∈ s'.calls, d.stops.length ≤ c.stop) →
        compare s'.trip.id s.trip.id ≠ .lt) →
      FirstAt (fun c => d.stops.length ≤ c.stop) s.calls j c →
      Refused d moment (.unknownStop s.trip.id c.stop d.stops.length)
  | invalidRule {i : Nat} {c : Connection} {fault : RuleError} : d.ListsFit → d.TargetsKnown →
      d.CallsKnown moment → FirstAt (fun c => ¬ c.rule.InRange) d.connections i c →
      c.rule.OutOfRange fault → Refused d moment (.invalidRule c.source fault)

/-! ### The checks -/

variable {d : Description} {moment : DateTime} {s : ScheduledTrip} {paths : List (List Footpath)}

/-- The active trips are those that the version tags choose. -/
theorem mem_activeTrips_iff : s ∈ d.activeTrips moment ↔ d.Active moment s := by
  simp only [activeTrips, SortedMap.values, List.mem_map, Active]
  constructor
  · rintro ⟨e, ⟨⟨id, e⟩, hentry, rfl⟩, rfl⟩
    have hfind := SortedMap.find?_eq_some_iff.mpr hentry
    obtain ⟨-, rfl, -⟩ := of_find?_activeSet hfind
    obtain ⟨i, hi⟩ := find?_activeSet_eq_some_iff.mp hfind
    exact ⟨i, e, hi, rfl⟩
  · rintro ⟨i, e, hi, rfl⟩
    have hfind := find?_activeSet_eq_some_iff.mpr ⟨i, hi⟩
    exact ⟨e, ⟨(e.value.trip.id, e), SortedMap.find?_eq_some_iff.mp hfind, rfl⟩, rfl⟩

private theorem checkCalls_activeTrips_eq_ok_iff :
    checkCalls d.stops.length (d.activeTrips moment) = .ok () ↔ d.CallsKnown moment := by
  simp only [checkCalls_eq_ok_iff, mem_activeTrips_iff, CallsKnown]

/-- Active trips ascend, so the first that calls at no stop has the smallest id. -/
private theorem exists_firstAt_activeTrips_iff {P : ScheduledTrip → Prop} :
    (∃ i, FirstAt P (d.activeTrips moment) i s) ↔
      d.Active moment s ∧ P s ∧
        ∀ s', d.Active moment s' → P s' → compare s'.trip.id s.trip.id ≠ .lt := by
  -- an order cannot put each of two trips before the other
  have hasymm : ∀ a b : ScheduledTrip, compare a.trip.id b.trip.id = .lt →
      ¬ compare b.trip.id a.trip.id = .lt := by
    intro a b hab hba
    have hswap : compare a.trip.id b.trip.id = (compare b.trip.id a.trip.id).swap :=
      Std.OrientedCmp.eq_swap
    rw [hab, hba] at hswap
    cases hswap
  rw [exists_firstAt_iff_of_pairwise (d.pairwise_activeTrips moment) hasymm]
  simp only [mem_activeTrips_iff, ne_eq]

private theorem exists_graph_iff (model : CostModel) (settings : BuildSettings)
    (h : d.footpathsByStop = .ok paths) :
    (∃ g, TransferGraph.build paths model settings = .ok g) ↔ d.TargetsKnown := by
  have hlists := (footpathsByStop_eq_ok_iff.mp h).1
  rw [TargetsKnown, ← firstStray_describedFootpaths_eq_none_iff hlists,
    ← firstStray_footpathsByStop h, TransferGraph.firstStray_eq_none_iff]
  constructor
  · rintro ⟨g, hg⟩
    exact (TransferGraph.build_eq_ok_iff.mp hg).1
  · exact TransferGraph.exists_build model settings

/-- The first described footpath that leads nowhere is reported; the added ones lead to stops. -/
private theorem graph_eq_error_iff (model : CostModel) (settings : BuildSettings)
    {e : TransferGraphError} (h : d.footpathsByStop = .ok paths) :
    TransferGraph.build paths model settings = .error e ↔
      ∃ origin ps j path,
        FirstAt (fun ps => ∃ path ∈ ps, d.stops.length ≤ path.target) d.footpaths origin ps ∧
          FirstAt (fun path => d.stops.length ≤ path.target) ps j path ∧
            ⟨origin, path.target, d.stops.length⟩ = e := by
  have hlists := (footpathsByStop_eq_ok_iff.mp h).1
  rw [TransferGraph.build_eq_error_iff, firstStray_footpathsByStop h,
    firstStray_describedFootpaths_eq_some_iff hlists]

end Description

/-! ### Building -/

namespace Network

open Description

variable {d : Description} {settings : Settings} {moment : DateTime} {n : Network}
  {e : NetworkError}

/-- A network comes out exactly of a consistent description. -/
theorem exists_build_iff : (∃ n, build d settings moment = .ok n) ↔ d.Consistent moment := by
  constructor
  · rintro ⟨n, h⟩
    have hbuilt := of_build h
    obtain ⟨paths, hpaths, hgraph⟩ := hbuilt.graph
    have hcalls := hbuilt.calls
    rw [hbuilt.trips, hbuilt.stops, ← checkCalls_eq_ok_iff] at hcalls
    exact ⟨(footpathsByStop_eq_ok_iff.mp hpaths).1, (exists_graph_iff _ _ hpaths).mp ⟨_, hgraph⟩,
      checkCalls_activeTrips_eq_ok_iff.mp hcalls, checkRules_eq_ok_iff.mp hbuilt.rules⟩
  · intro h
    have hpaths := footpathsByStop_eq_ok_iff.mpr ⟨h.lists, rfl⟩
    obtain ⟨g, hg⟩ := (exists_graph_iff settings.walk.cost settings.transfers hpaths).mpr h.targets
    have hcalls := checkCalls_activeTrips_eq_ok_iff.mpr h.calls
    have hrules := checkRules_eq_ok_iff.mpr h.rules
    refine ⟨⟨d.stops, g, .ofList d.connections, d.activeTrips moment, moment⟩, ?_⟩
    simp [build, hpaths, hg, hcalls, hrules, Except.mapError, bind, Except.bind, pure, Except.pure]

/-- A build fails at the first check that fails. -/
private theorem build_eq_error_iff_checks :
    build d settings moment = .error e ↔
      (∃ e', d.footpathsByStop = .error e' ∧ .footpathLists e' = e) ∨
      ∃ paths, d.footpathsByStop = .ok paths ∧
        ((∃ e', TransferGraph.build paths settings.walk.cost settings.transfers = .error e' ∧
            .graph e' = e) ∨
          (∃ g, TransferGraph.build paths settings.walk.cost settings.transfers = .ok g) ∧
            (checkCalls d.stops.length (d.activeTrips moment) = .error e ∨
              checkCalls d.stops.length (d.activeTrips moment) = .ok () ∧
                checkRules d.connections = .error e)) := by
  rw [build]
  simp only [bind_eq_error_iff, mapError_eq_error_iff, mapError_eq_ok_iff]
  simp [pure, Except.pure, exists_eq_ok_unit_iff]

/-- **Refusals.** The build fails with the first offender against the first failing condition. -/
theorem build_eq_error_iff : build d settings moment = .error e ↔ d.Refused moment e := by
  rw [build_eq_error_iff_checks]
  constructor
  · -- check by check; whatever comes to the next one has passed those before
    rintro (⟨e', he', rfl⟩ | ⟨paths, hpaths, hfails⟩)
    · obtain ⟨hlists, rfl⟩ := footpathsByStop_eq_error_iff.mp he'
      exact .footpathLists (Nat.not_le.mpr hlists)
    have hlists := (footpathsByStop_eq_ok_iff.mp hpaths).1
    rcases hfails with ⟨e', he', rfl⟩ | ⟨hgraph, hfails⟩
    · obtain ⟨origin, ps, j, path, hfirst, hpath, rfl⟩ := (graph_eq_error_iff _ _ hpaths).mp he'
      exact .graph hlists hfirst hpath
    have htargets := (exists_graph_iff _ _ hpaths).mp hgraph
    rcases hfails with hcalls | ⟨hcalls, hrules⟩
    · obtain ⟨i, s, j, c, hfirst, hc, rfl⟩ := checkCalls_eq_error_iff.mp hcalls
      obtain ⟨hactive, -, hleast⟩ := exists_firstAt_activeTrips_iff.mp ⟨i, hfirst⟩
      exact .unknownStop hlists htargets hactive hleast hc
    · obtain ⟨i, c, fault, hfirst, hfault, rfl⟩ := checkRules_eq_error_iff.mp hrules
      exact .invalidRule hlists htargets (checkCalls_activeTrips_eq_ok_iff.mp hcalls) hfirst hfault
  · intro h
    cases h with
    | footpathLists hlists =>
      exact .inl ⟨_, footpathsByStop_eq_error_iff.mpr ⟨Nat.not_le.mp hlists, rfl⟩, rfl⟩
    | graph hlists hfirst hpath =>
      have hpaths := footpathsByStop_eq_ok_iff.mpr ⟨hlists, rfl⟩
      exact .inr ⟨_, hpaths, .inl ⟨_, (graph_eq_error_iff _ _ hpaths).mpr
        ⟨_, _, _, _, hfirst, hpath, rfl⟩, rfl⟩⟩
    | unknownStop hlists htargets hactive hleast hc =>
      have hpaths := footpathsByStop_eq_ok_iff.mpr ⟨hlists, rfl⟩
      obtain ⟨i, hfirst⟩ := exists_firstAt_activeTrips_iff.mpr
        ⟨hactive, ⟨_, hc.mem, hc.holds⟩, hleast⟩
      have hcalls := checkCalls_eq_error_iff.mpr ⟨i, _, _, _, hfirst, hc, rfl⟩
      exact .inr ⟨_, hpaths, .inr ⟨(exists_graph_iff _ _ hpaths).mpr htargets, .inl hcalls⟩⟩
    | invalidRule hlists htargets hcalls hfirst hfault =>
      have hpaths := footpathsByStop_eq_ok_iff.mpr ⟨hlists, rfl⟩
      have hrules := checkRules_eq_error_iff.mpr ⟨_, _, _, hfirst, hfault, rfl⟩
      exact .inr ⟨_, hpaths, .inr ⟨(exists_graph_iff _ _ hpaths).mpr htargets,
        .inr ⟨checkCalls_activeTrips_eq_ok_iff.mpr hcalls, hrules⟩⟩⟩

/-- **Well built.** What holds of the network of a description. -/
structure WellBuilt (d : Description) (moment : DateTime) (n : Network) : Prop where
  stops : n.stops = d.stops
  /-- The graph covers the stops in both directions -/
  covered : n.graph.forward.length = n.stops.length ∧ n.graph.reverse.length = n.stops.length
  forward : ∀ edges ∈ n.graph.forward, ∀ e ∈ edges, e.stop < n.stops.length
  reverse : ∀ edges ∈ n.graph.reverse, ∀ e ∈ edges, e.stop < n.stops.length
  trips : ∀ s, s ∈ n.trips ↔ d.Active moment s
  ascending : n.trips.Pairwise fun a b => compare a.trip.id b.trip.id = .lt
  /-- Every connection is counted, once -/
  counted : n.connections.size + n.connections.forbidden = d.connections.length
  /-- The timetable has one entry for each trip, as it is scheduled and under its own id -/
  timetable : n.timetable.trips.entries = n.trips.map fun s => (s.trip.id, s.live)

/-- What comes out has the parts of the description that it should have. -/
theorem wellBuilt_of_build (h : build d settings moment = .ok n) : WellBuilt d moment n := by
  have hbuilt := of_build h
  obtain ⟨paths, hpaths, hgraph⟩ := hbuilt.graph
  have hcount : n.graph.stopCount = n.stops.length := by
    obtain ⟨-, hg⟩ := TransferGraph.build_eq_ok_iff.mp hgraph
    rw [hg, TransferGraph.stopCount, forwardPass, List.length_map, length_footpathsByStop hpaths,
      hbuilt.stops]
  have hascending := d.pairwise_activeTrips moment
  have hids := d.nodup_ids_activeTrips moment
  rw [← hbuilt.trips] at hascending hids
  refine ⟨hbuilt.stops, ⟨hcount, ?_⟩, ?_, ?_, ?_, hascending, ?_, ?_⟩
  · exact (TransferGraph.mirrored_of_build hgraph).stops.trans hcount
  · intro edges hedges e he
    exact hcount ▸ TransferGraph.stop_lt_of_mem_forward hgraph hedges he
  · intro edges hedges e he
    exact hcount ▸ TransferGraph.stop_lt_of_mem_reverse hgraph hedges he
  · intro s
    rw [hbuilt.trips, mem_activeTrips_iff]
  · rw [hbuilt.connections]
    exact ConnectionIndex.size_add_forbidden_ofList d.connections
  · exact Timetable.entries_seed hids hascending

/-- **Building.** A description makes a network exactly if it is consistent at the moment, and the
network is well built. Otherwise the first offender against the first failing condition is
reported. The settings have no say in this. -/
theorem build_iff_consistent (d : Description) (settings : Settings) (moment : DateTime) :
    ((∃ n, build d settings moment = .ok n) ↔ d.Consistent moment) ∧
      (∀ e, build d settings moment = .error e ↔ d.Refused moment e) ∧
      ∀ n, build d settings moment = .ok n → WellBuilt d moment n :=
  ⟨exists_build_iff, fun _ => build_eq_error_iff, fun _ => wellBuilt_of_build⟩

/-- A version that has expired may call at any stop, but the rule of a forbidden connection has to
be in range. -/
theorem build_iff_consistent_expired_forbidden :
    let day (n : Nat) (h : 1 ≤ n ∧ n ≤ 30) : DateTime :=
      ⟨2024, 6, n, 0, 0, 0, 0, by decide, h, by decide⟩
    let id : ScopedId := ⟨"N", "T", by decide⟩
    let route : ScopedId := ⟨"N", "R", by decide⟩
    let trip (calls : List Call) : ScheduledTrip := ⟨⟨id, route, none, none⟩, calls⟩
    let expired : Versioned ScheduledTrip := ⟨⟨"2"⟩, [⟨none, some (day 5 (by decide))⟩],
      trip [⟨7, 1, .hms 8 0 0, .hms 8 0 0⟩]⟩
    let current : Versioned ScheduledTrip := ⟨.any, [],
      trip [⟨0, 1, .hms 8 0 0, .hms 8 0 0⟩, ⟨1, 2, .hms 8 5 0, .hms 8 5 0⟩]⟩
    let d (change : Int) : Description :=
      { stops := [⟨⟨"N", "A", by decide⟩, "Alpha", ⟨60.1, 24.9⟩⟩,
          ⟨⟨"N", "B", by decide⟩, "Beta", ⟨60.2, 24.9⟩⟩]
        footpaths := [[.flat 1 80]]
        connections := [⟨⟨id, 0⟩, ⟨id, 1⟩, 0, .hms 9 0 0,
          { priority := .notAllowed, minTransferTime := some change }⟩]
        trips := [expired, current] }
    let today := day 10 (by decide)
    (∃ n, build (d 60) (.default 1) today = .ok n ∧ WellBuilt (d 60) today n) ∧
      build (d 90000) (.default 1) today =
        .error (.invalidRule ⟨id, 0⟩ ⟨"min_transfer_time", 90000⟩) := by
  intro day id route trip expired current d today
  have hpaths : ∀ ps ∈ [[Footpath.flat 1 80]], ∀ path ∈ ps, path.target < 2 := by decide
  have hcalls : checkCalls (d 60).stops.length ((d 60).activeTrips today) = .ok () := by
    decide +kernel
  -- the rule only shows in the last condition
  have hlists (change : Int) : (d change).ListsFit := Nat.le_succ 1
  have htargets (change : Int) : (d change).TargetsKnown := hpaths
  have hknown (change : Int) : (d change).CallsKnown today :=
    checkCalls_activeTrips_eq_ok_iff.mp hcalls
  constructor
  · obtain ⟨haccepts, -, hwell⟩ := build_iff_consistent (d 60) (.default 1) today
    obtain ⟨n, hn⟩ := haccepts.mpr
      ⟨hlists 60, htargets 60, hknown 60, checkRules_eq_ok_iff.mp rfl⟩
    exact ⟨n, hn, hwell n hn⟩
  · obtain ⟨-, hrefuses, -⟩ := build_iff_consistent (d 90000) (.default 1) today
    have hrule : ConnectionRule.OutOfRange
        { minTransferTime := some 90000, priority := .notAllowed } ⟨"min_transfer_time", 90000⟩ :=
      .minTransferTime rfl (by decide)
    have hfirst : FirstAt (fun c => ¬ c.rule.InRange) (d 90000).connections 0
        ⟨⟨id, 0⟩, ⟨id, 1⟩, 0, .hms 9 0 0,
          { minTransferTime := some 90000, priority := .notAllowed }⟩ :=
      ⟨rfl, fun h => absurd (h.minTransferTime _ rfl) (by decide), fun j _ _ _ => Nat.zero_le j⟩
    exact (hrefuses _).mpr
      (.invalidRule (hlists 90000) (htargets 90000) (hknown 90000) hfirst hrule)

end Network

end Interchange
