import Interchange.Proofs.Network.Footpaths
import Interchange.Proofs.Network.Sweep

/-!
# Stops that are joined because they are near

Every near pair of stops adds a flat footpath at both of its stops. The pairs come in the order of
their indices, so those that end at a stop come before those that begin there, and the footpaths
added at a stop ascend by the stop to which they lead (`pairwise_pathsFrom`). The full scan has
exactly the pairs of stops within the walking distance, hence so have the footpaths
(`Description.near_stops_joined`).

The arithmetic of positions is that of floating-point numbers. What is taken for granted of it for
the stops at hand is said by `Surveyable`.
-/

namespace Interchange

/-! ### What a pair adds -/

namespace NearPair

variable {pair : NearPair Float} {i : StopIndex} {path : Footpath}

/-- The footpaths that a near pair adds at a stop. -/
def pathsFrom (i : StopIndex) (pair : NearPair Float) : List Footpath :=
  (if pair.first = i then [.flat pair.second pair.distance] else []) ++
    if pair.second = i then [.flat pair.first pair.distance] else []

/-- A pair adds a footpath at each of its stops, to the other one. -/
theorem mem_pathsFrom_iff :
    path ∈ pair.pathsFrom i ↔ pair.first = i ∧ path = .flat pair.second pair.distance ∨
      pair.second = i ∧ path = .flat pair.first pair.distance := by
  rw [pathsFrom, List.mem_append]
  split_ifs <;> simp [*]

/-- No pair both begins and ends at a stop. -/
theorem pairwise_pathsFrom (h : pair.first < pair.second) (R : Footpath → Footpath → Prop) :
    (pair.pathsFrom i).Pairwise R := by
  rw [pathsFrom]
  split_ifs with hfirst hsecond
  · exact absurd (hfirst.trans hsecond.symm) (Nat.ne_of_lt h)
  · exact List.pairwise_singleton _ _
  · exact List.pairwise_singleton _ _
  · exact .nil

end NearPair

private theorem getElem?_addNearPair (lists : List (List Footpath)) (pair : NearPair Float)
    (i : StopIndex) :
    (addNearPair lists pair)[i]? = lists[i]?.map (· ++ pair.pathsFrom i) := by
  rw [addNearPair, List.getElem?_modify, List.getElem?_modify, NearPair.pathsFrom]
  cases lists[i]? with
  | none => rfl
  | some paths => split_ifs <;> simp

/-- At a stop, pairs add their footpaths one behind the other. -/
theorem getElem?_foldl_addNearPair (pairs : List (NearPair Float)) (lists : List (List Footpath))
    (i : StopIndex) :
    (pairs.foldl addNearPair lists)[i]? =
      lists[i]?.map (· ++ pairs.flatMap (NearPair.pathsFrom i)) := by
  induction pairs generalizing lists with
  | nil => simp
  | cons pair pairs ih =>
    rw [List.foldl_cons, ih, getElem?_addNearPair, Option.map_map, List.flatMap_cons]
    refine congrArg (fun f => Option.map f lists[i]?) (funext fun paths => ?_)
    exact List.append_assoc _ _ _

/-- **Ascending.** The footpaths that pairs in order add at a stop ascend by their targets: those to
stops with lower indices were added first. -/
theorem pairwise_pathsFrom {pairs : List (NearPair Float)} (i : StopIndex)
    (hlt : ∀ p ∈ pairs, p.first < p.second) (h : pairs.Pairwise NearPair.Precedes) :
    (pairs.flatMap (NearPair.pathsFrom i)).Pairwise fun p q => p.target < q.target := by
  refine List.pairwise_flatMap.mpr ⟨fun p hp => p.pairwise_pathsFrom (hlt p hp) _, ?_⟩
  refine h.imp_of_mem fun {p q} hp hq hpq path hpath path' hpath' => ?_
  have hp := hlt p hp
  have hq := hlt q hq
  rw [NearPair.Precedes] at hpq
  rcases NearPair.mem_pathsFrom_iff.mp hpath with ⟨hi, rfl⟩ | ⟨hi, rfl⟩ <;>
    rcases NearPair.mem_pathsFrom_iff.mp hpath' with ⟨hi', rfl⟩ | ⟨hi', rfl⟩
  · exact show p.second < q.second by omega
  · exact show p.second < q.first by omega
  · exact show p.first < q.second by omega
  · exact show p.first < q.first by omega

/-! ### Stops -/

/-- **What is taken for granted of the stops.** Their latitudes are compared and subtracted as exact
numbers, the distance between two of them is the same both ways, and two of them whose latitudes
differ by more than the span are not within `meters` of each other. -/
structure Surveyable (stops : List Stop) (meters : Float) : Prop where
  exact : ∃ (degrees : Float → ℚ) (span : ℚ), ∀ a ∈ stops, ∀ b ∈ stops,
    (a.coordinate.latitude ≤ b.coordinate.latitude ↔
      degrees a.coordinate.latitude ≤ degrees b.coordinate.latitude) ∧
    (Coordinate.latitudeSpan meters < b.coordinate.latitude - a.coordinate.latitude ↔
      span < degrees b.coordinate.latitude - degrees a.coordinate.latitude)
  distance_comm : ∀ a ∈ stops, ∀ b ∈ stops,
    a.coordinate.distance b.coordinate = b.coordinate.distance a.coordinate
  far : ∀ a ∈ stops, ∀ b ∈ stops,
    Coordinate.latitudeSpan meters < b.coordinate.latitude - a.coordinate.latitude →
      ¬ a.coordinate.distance b.coordinate ≤ meters

/-- Stops are swept by their latitudes. -/
private theorem Surveyable.exists_measured {stops : List Stop} {meters : Float}
    (h : Surveyable stops meters) :
    ∃ measure reach, (stopSweep meters).Measured measure reach stops := by
  obtain ⟨degrees, span, hexact⟩ := h.exact
  refine ⟨fun a => degrees a.coordinate.latitude, span, ?_, ?_, h.distance_comm, ?_⟩
  · exact fun a ha b hb => decide_eq_true_iff.trans (hexact a ha b hb).1
  · exact fun a ha b hb => decide_eq_true_iff.trans (hexact a ha b hb).2
  · exact fun a ha b hb hout =>
      decide_eq_false_iff_not.mpr (h.far a ha b hb (of_decide_eq_true hout))

/-- **Near stops.** The sweep finds the pairs of stops within the walking distance, in the order of
their indices and each once. -/
theorem Surveyable.nearPairs_eq {stops : List Stop} {meters : Float} (h : Surveyable stops meters) :
    (stopSweep meters).nearPairs stops = (stopSweep meters).allNearPairs stops := by
  obtain ⟨measure, reach, hmeasured⟩ := h.exists_measured
  exact Sweep.nearPairs_eq_allNearPairs hmeasured

/-- Two stops and the distance between them. -/
theorem mem_allNearPairs_stopSweep_iff {stops : List Stop} {meters : Float} {p : NearPair Float} :
    p ∈ (stopSweep meters).allNearPairs stops ↔ p.first < p.second ∧
      ∃ a b, stops[p.first]? = some a ∧ stops[p.second]? = some b ∧
        p.distance = a.coordinate.distance b.coordinate ∧ p.distance ≤ meters := by
  have hnear : ∀ x : Float, (stopSweep meters).near x = true ↔ x ≤ meters :=
    fun _ => decide_eq_true_iff
  rw [Sweep.mem_allNearPairs_iff]
  simp only [hnear]
  rfl

namespace Description

variable {d : Description} {nearby : StopIndex → List Footpath}

/-- The footpaths to stops nearby. -/
def nearbyPaths (d : Description) (i : StopIndex) : List Footpath :=
  d.nearStops.flatMap (NearPair.pathsFrom i)

/-- Two stops that are `x` meters apart, which is within the walking distance. -/
def WithinWalk (d : Description) (i j : StopIndex) (x : Float) : Prop :=
  ∃ meters a b, d.maxWalk = some meters ∧ d.stops[i]? = some a ∧ d.stops[j]? = some b ∧
    x = a.coordinate.distance b.coordinate ∧ x ≤ meters

/-- **Surroundings.** The footpaths that are added at each stop lead to all other stops within the
walking distance and nowhere else, flat, and in ascending order. -/
structure Surroundings (d : Description) (nearby : StopIndex → List Footpath) : Prop where
  ascending : ∀ i, (nearby i).Pairwise fun p q => p.target < q.target
  mem_iff : ∀ i path, path ∈ nearby i ↔ path.target ≠ i ∧
    path = .flat path.target path.distance ∧ d.WithinWalk i path.target path.distance
  symm : ∀ i j x, .flat j x ∈ nearby i ↔ .flat i x ∈ nearby j
  eq_nil : d.maxWalk = none → ∀ i, nearby i = []

/-- The walking distance is the same both ways. -/
theorem WithinWalk.symm (hsurvey : ∀ meters ∈ d.maxWalk, Surveyable d.stops meters)
    {i j : StopIndex} {x : Float} (h : d.WithinWalk i j x) : d.WithinWalk j i x := by
  obtain ⟨meters, a, b, hwalk, ha, hb, hx, hnear⟩ := h
  rw [(hsurvey meters hwalk).distance_comm a (List.mem_of_getElem? ha) b
    (List.mem_of_getElem? hb)] at hx
  exact ⟨meters, b, a, hwalk, hb, ha, hx, hnear⟩

private theorem nearStops_eq {meters : Float} (h : d.maxWalk = some meters)
    (hsurvey : Surveyable d.stops meters) :
    d.nearStops = (stopSweep meters).allNearPairs d.stops := by
  rw [nearStops, h]
  exact hsurvey.nearPairs_eq

/-- The near pairs of a description are those of the full scan. -/
theorem mem_nearStops_iff (hsurvey : ∀ meters ∈ d.maxWalk, Surveyable d.stops meters)
    {p : NearPair Float} :
    p ∈ d.nearStops ↔ p.first < p.second ∧ d.WithinWalk p.first p.second p.distance := by
  rw [WithinWalk]
  cases hwalk : d.maxWalk with
  | none => simp [nearStops, hwalk]
  | some meters =>
    rw [nearStops_eq hwalk (hsurvey meters hwalk), mem_allNearPairs_stopSweep_iff]
    simp

private theorem pairwise_nearStops (hsurvey : ∀ meters ∈ d.maxWalk, Surveyable d.stops meters) :
    d.nearStops.Pairwise NearPair.Precedes := by
  cases hwalk : d.maxWalk with
  | none =>
    rw [nearStops, hwalk]
    exact .nil
  | some meters =>
    rw [nearStops_eq hwalk (hsurvey meters hwalk)]
    exact Sweep.pairwise_allNearPairs _ _

/-- The footpaths to stops nearby are flat and lead to all others within the walking distance. -/
theorem mem_nearbyPaths_iff (hsurvey : ∀ meters ∈ d.maxWalk, Surveyable d.stops meters)
    {i : StopIndex} {path : Footpath} :
    path ∈ d.nearbyPaths i ↔ path.target ≠ i ∧ path = .flat path.target path.distance ∧
      d.WithinWalk i path.target path.distance := by
  simp only [nearbyPaths, List.mem_flatMap, NearPair.mem_pathsFrom_iff]
  constructor
  · rintro ⟨p, hp, hpath⟩
    obtain ⟨hlt, hnear⟩ := (mem_nearStops_iff hsurvey).mp hp
    rcases hpath with ⟨rfl, rfl⟩ | ⟨rfl, rfl⟩
    · exact ⟨Nat.ne_of_gt hlt, rfl, hnear⟩
    · -- the pair is seen from its second stop
      exact ⟨Nat.ne_of_lt hlt, rfl, hnear.symm hsurvey⟩
  · rintro ⟨hne, hpath, hnear⟩
    rcases Nat.lt_or_gt_of_ne hne with hlt | hgt
    · exact ⟨⟨path.target, i, path.distance⟩,
        (mem_nearStops_iff hsurvey).mpr ⟨hlt, hnear.symm hsurvey⟩, .inr ⟨rfl, hpath⟩⟩
    · exact ⟨⟨i, path.target, path.distance⟩,
        (mem_nearStops_iff hsurvey).mpr ⟨hgt, hnear⟩, .inl ⟨rfl, hpath⟩⟩

/-- A footpath is added in both directions or in none. -/
private theorem flat_mem_nearbyPaths (hsurvey : ∀ meters ∈ d.maxWalk, Surveyable d.stops meters)
    {i j : StopIndex} {x : Float} (h : .flat j x ∈ d.nearbyPaths i) :
    .flat i x ∈ d.nearbyPaths j := by
  obtain ⟨hne, -, hnear⟩ := (mem_nearbyPaths_iff hsurvey).mp h
  exact (mem_nearbyPaths_iff hsurvey).mpr ⟨hne.symm, rfl, hnear.symm hsurvey⟩

/-- The sweep finds the surroundings of every stop. -/
theorem surroundings_nearbyPaths (hsurvey : ∀ meters ∈ d.maxWalk, Surveyable d.stops meters) :
    d.Surroundings d.nearbyPaths where
  ascending i :=
    pairwise_pathsFrom i (fun p hp => ((mem_nearStops_iff hsurvey).mp hp).1)
      (pairwise_nearStops hsurvey)
  mem_iff _ _ := mem_nearbyPaths_iff hsurvey
  symm _ _ _ := ⟨flat_mem_nearbyPaths hsurvey, flat_mem_nearbyPaths hsurvey⟩
  eq_nil hwalk i := by
    rw [nearbyPaths, nearStops, hwalk]
    rfl

private theorem getElem?_describedFootpaths {i : StopIndex} (h : i < d.stops.length) :
    d.describedFootpaths[i]? = some ((d.footpaths[i]?).getD []) := by
  rw [describedFootpaths]
  rcases Nat.lt_or_ge i d.footpaths.length with hlt | hge
  · rw [List.getElem?_append_left hlt, List.getElem?_eq_getElem hlt, Option.getD_some]
  · rw [List.getElem?_append_right hge, List.getElem?_replicate,
      if_pos (Nat.sub_lt_sub_right hge h), List.getElem?_eq_none hge, Option.getD_none]

/-- The footpaths of a stop are the described ones and those to stops nearby. -/
theorem getElem?_footpathsByStop {paths : List (List Footpath)} (h : d.footpathsByStop = .ok paths)
    {i : StopIndex} (hi : i < d.stops.length) :
    paths[i]? = some ((d.footpaths[i]?).getD [] ++ d.nearbyPaths i) := by
  obtain ⟨-, rfl⟩ := footpathsByStop_eq_ok_iff.mp h
  rw [getElem?_foldl_addNearPair, getElem?_describedFootpaths hi]
  rfl

/-- **Near stops are joined.** The sweep finds exactly the pairs of stops within the walking
distance, each once and in the order of their indices. A network therefore has, for every stop, the
described footpaths and behind them those to all stops nearby. -/
theorem near_stops_joined :
    (∀ (stops : List Stop) (meters : Float), Surveyable stops meters →
      ((stopSweep meters).nearPairs stops).Pairwise NearPair.Precedes ∧
      ∀ p, p ∈ (stopSweep meters).nearPairs stops ↔ p.first < p.second ∧
        ∃ a b, stops[p.first]? = some a ∧ stops[p.second]? = some b ∧
          p.distance = a.coordinate.distance b.coordinate ∧ p.distance ≤ meters) ∧
    ∀ (d : Description) (paths : List (List Footpath)),
      (∀ meters ∈ d.maxWalk, Surveyable d.stops meters) → d.footpathsByStop = .ok paths →
      paths.length = d.stops.length ∧
        ∃ nearby, d.Surroundings nearby ∧ ∀ i < d.stops.length,
          paths[i]? = some ((d.footpaths[i]?).getD [] ++ nearby i) := by
  constructor
  · intro stops meters hsurvey
    rw [hsurvey.nearPairs_eq]
    exact ⟨Sweep.pairwise_allNearPairs _ _, fun _ => mem_allNearPairs_stopSweep_iff⟩
  · intro d paths hsurvey hpaths
    exact ⟨length_footpathsByStop hpaths, d.nearbyPaths, surroundings_nearbyPaths hsurvey,
      fun _ hi => getElem?_footpathsByStop hpaths hi⟩

/-! ### Stops on a meridian -/

/-- Zero times a finite number is zero of either sign, and zero times anything else no number. -/
private theorem zero_mul_mem (c : Float) :
    0 * c ∈ if c.isFinite then [(0 : Float), -0] else [0 / 0] := by
  have hmul : (0 : Float) * c = .ofModel (.pack
      (.mul .binary64 (.zero .positive) c.toModel.unpack)) := rfl
  have hfinite : c.isFinite = c.toModel.unpack.isFinite := rfl
  have hnan : Float.ofModel (.pack .notANumber) = 0 / 0 := by decide +kernel
  have hzero : Float.ofModel (.pack (.zero .positive)) = 0 := rfl
  have hneg : Float.ofModel (.pack (.zero .negative)) = -0 := by decide +kernel
  -- nothing is known of `c`, so the product is computed for each form of a number
  rw [hmul, hfinite]
  cases c.toModel.unpack with
  | notANumber => exact List.mem_singleton.mpr hnan
  | infinity sign => exact List.mem_singleton.mpr hnan
  | zero sign =>
    cases sign with
    | positive => exact List.mem_pair.mpr (.inl hzero)
    | negative => exact List.mem_pair.mpr (.inr hneg)
  | finite sign =>
    cases sign with
    | positive => exact List.mem_pair.mpr (.inl hzero)
    | negative => exact List.mem_pair.mpr (.inr hneg)

/-- Three stops on a meridian. Between the latitudes of the first and the last of them there are
some fifty meters, and between those of the first two more than thirty kilometers. -/
private def stopsOnMeridian : List Stop :=
  [⟨⟨"F", "A", by decide⟩, "Central", ⟨59.911, 10.75⟩⟩,
    ⟨⟨"F", "B", by decide⟩, "Airport", ⟨60.1939, 10.75⟩⟩,
    ⟨⟨"F", "C", by decide⟩, "Opera", ⟨59.9115, 10.75⟩⟩]

private def degree : Float := 3.14159265358979323846264338327950288 / 180

/-- Along a meridian the cosine of the latitude is multiplied by zero. -/
private theorem distance_meridian (x y : Float) :
    Coordinate.distance ⟨x, 10.75⟩ ⟨y, 10.75⟩ =
      ((0 * ((x * degree + y * degree) / 2).cos) * (0 * ((x * degree + y * degree) / 2).cos) +
        (y * degree - x * degree) * (y * degree - x * degree)).sqrt * 6371010 := by
  have hzero : ((10.75 : Float) - 10.75) * degree = 0 := by decide +kernel
  rw [← hzero]
  rfl

/-- On a meridian the distance does not depend on the cosine of the latitude. -/
private theorem surveyable_stopsOnMeridian : Surveyable stopsOnMeridian 500 := by
  let latitudes : List Float := [59.911, 60.1939, 59.9115]
  have hstops : ∀ a ∈ stopsOnMeridian, ∃ x ∈ latitudes, a.coordinate = ⟨x, 10.75⟩ := by
    simp [stopsOnMeridian, latitudes]
  have hcomm : ∀ x ∈ latitudes, ∀ y ∈ latitudes,
      x * degree + y * degree = y * degree + x * degree ∧
      (y * degree - x * degree) * (y * degree - x * degree) =
        (x * degree - y * degree) * (x * degree - y * degree) := by decide +kernel
  have hfar : ∀ x ∈ latitudes, ∀ y ∈ latitudes, Coordinate.latitudeSpan 500 < y - x →
      ∀ z ∈ [(0 : Float), -0] ++ [0 / 0],
        ¬ (z * z + (y * degree - x * degree) * (y * degree - x * degree)).sqrt * 6371010 ≤ 500 := by
    decide +kernel
  refine ⟨?_, ?_, ?_⟩
  · -- latitudes in steps of a ten-thousandth of a degree
    refine ⟨fun x => if x ≤ 59.911 then 0 else if x ≤ 59.9115 then 5 else 2829, 45, ?_⟩
    decide +kernel
  · -- the sum and the square are the same both ways, whatever the cosine is
    intro a ha b hb
    obtain ⟨x, hx, hax⟩ := hstops a ha
    obtain ⟨y, hy, hby⟩ := hstops b hb
    obtain ⟨hsum, hsquare⟩ := hcomm x hx y hy
    rw [hax, hby, distance_meridian, distance_meridian, hsum, hsquare]
  · -- the square root exceeds the bound for each value that the product can have
    intro a ha b hb hgap
    obtain ⟨x, hx, hax⟩ := hstops a ha
    obtain ⟨y, hy, hby⟩ := hstops b hb
    rw [hax, hby] at hgap ⊢
    rw [distance_meridian]
    refine hfar x hx y hy hgap _ (List.mem_append.mpr ?_)
    have hzero := zero_mul_mem ((x * degree + y * degree) / 2).cos
    split_ifs at hzero
    · exact .inl hzero
    · exact .inr hzero

/-- The first and the last stop are near if the cosine of their latitude is finite. -/
private theorem distance_stopsOnMeridian (hcos : ∀ x : Float, x.isFinite → x.cos.isFinite) :
    Coordinate.distance ⟨59.911, 10.75⟩ ⟨59.9115, 10.75⟩ ≤ 500 := by
  have hangle : (((59.911 : Float) * degree + 59.9115 * degree) / 2).isFinite := by decide +kernel
  have hnear : ∀ z ∈ [(0 : Float), -0],
      (z * z + (59.9115 * degree - 59.911 * degree) * (59.9115 * degree - 59.911 * degree)).sqrt
        * 6371010 ≤ 500 := by
    decide +kernel
  have hzero := zero_mul_mem (((59.911 : Float) * degree + 59.9115 * degree) / 2).cos
  rw [if_pos (hcos _ hangle)] at hzero
  rw [distance_meridian]
  exact hnear _ hzero

/-- Stops on a meridian, of which the first has a described footpath to the second. It comes before
the footpaths to stops nearby, and the second stop is not among those. Nothing is known here of the
values of a cosine; from a cosine that is finite at finite angles, as a cosine is, it follows that
the first and the last stop are joined both ways. -/
theorem near_stops_joined_three :
    let d : Description :=
      { stops := stopsOnMeridian, footpaths := [[.flat 1 40000]], maxWalk := some 500 }
    Surveyable stopsOnMeridian 500 ∧
      ((stopSweep 500).nearPairs stopsOnMeridian).Pairwise NearPair.Precedes ∧
      ∃ paths, d.footpathsByStop = .ok paths ∧ paths.length = 3 ∧
        ∃ nearby, d.Surroundings nearby ∧ paths[0]? = some (.flat 1 40000 :: nearby 0) ∧
          paths[2]? = some (nearby 2) ∧ (∀ x, .flat 1 x ∉ nearby 0) ∧
          ((∀ x : Float, x.isFinite → x.cos.isFinite) →
            ∃ x, .flat 2 x ∈ nearby 0 ∧ .flat 0 x ∈ nearby 2) := by
  intro d
  have hsurvey := surveyable_stopsOnMeridian
  have hpaths : d.footpathsByStop = .ok _ := footpathsByStop_eq_ok_iff.mpr ⟨by decide, rfl⟩
  obtain ⟨hpairs, -⟩ := near_stops_joined.1 _ _ hsurvey
  obtain ⟨hlength, nearby, hnearby, hpath⟩ := near_stops_joined.2 d _
    (fun meters hwalk => Option.some.inj hwalk ▸ hsurvey) hpaths
  refine ⟨hsurvey, hpairs, _, hpaths, hlength, nearby, hnearby, hpath 0 (by decide),
    hpath 2 (by decide), fun x hx => ?_, fun hcos => ?_⟩
  · -- the latitudes alone are too far apart
    obtain ⟨-, -, meters, a, b, hwalk, ha, hb, hdistance, hnear⟩ := (hnearby.mem_iff _ _).mp hx
    obtain rfl := Option.some.inj hwalk
    have hgap : Coordinate.latitudeSpan 500 < b.coordinate.latitude - a.coordinate.latitude := by
      obtain rfl := Option.some.inj ha
      obtain rfl := Option.some.inj hb
      decide +kernel
    rw [hdistance] at hnear
    exact hsurvey.far a (List.mem_of_getElem? ha) b (List.mem_of_getElem? hb) hgap hnear
  · have hjoined : .flat 2 (Coordinate.distance ⟨59.911, 10.75⟩ ⟨59.9115, 10.75⟩) ∈ nearby 0 :=
      (hnearby.mem_iff _ _).mpr ⟨by decide, rfl, 500, _, _, rfl, rfl, rfl, rfl,
        distance_stopsOnMeridian hcos⟩
    exact ⟨_, hjoined, (hnearby.symm _ _ _).mp hjoined⟩

end Description

end Interchange
