import Interchange.Proofs.Tally
import Interchange.Proofs.Timetable.Steps
import Interchange.Proofs.Timetable.Target

/-!
# What mutations leave alone

A mutation touches one trip, and of that trip only what it is about (`Timetable.Frame`): taking a
trip out of service may change its state, rerouting it may change its calls as well, and adding it
puts in a key that was not there. Nothing ever takes a key away. So batches leave the record of
every trip as it is, the number of trips grows by those that are added, and every trip is counted
in one state (`Timetable.conserved`).
-/

namespace Interchange

namespace Timetable

variable {t t' : Timetable} {m : Mutation} {key : ScopedId} {warnings : List Warning}

/-! ### One mutation -/

/-- A trip that is taken out of service changes its state at most. -/
private theorem Succeeds.exists_withdrawn {state : TripState} (hs : t.Succeeds m t' warnings)
    (hm : m.withdrawal? = some state) :
    ∃ key live state', t.resolve m.trip = some key ∧ t.trip? key = some live ∧
      t'.trip? key = some { live with state := state' } := by
  cases hs with
  | @withdrawn _ state key live _ hkey hlive =>
    refine ⟨key, live, state, hkey, hlive, ?_⟩
    rw [trip?_modifyTrip, if_pos rfl, hlive, Option.map_some]
  | @alreadyWithdrawn _ _ key live _ hkey hlive => exact ⟨key, live, live.state, hkey, hlive, hlive⟩
  | rerouted => cases hm
  | added => cases hm

/-- A trip that is rerouted changes its state and its calls at most. -/
private theorem Succeeds.exists_rerouted {id : ScopedId} {calls : List Call}
    (hs : t.Succeeds (.reroute id calls) t' warnings) :
    ∃ key live state' calls', t.resolve id = some key ∧ t.trip? key = some live ∧
      t'.trip? key = some { live with state := state', calls := calls' } := by
  obtain ⟨key, live, hkey, hlive, -, -, rfl⟩ := hs.of_reroute
  have hlive' := trip?_modifyTrip t key key fun l =>
    { l with calls, state := if live.stops = calls.map Call.stop then .updated else .modified }
  rw [if_pos rfl, hlive, Option.map_some] at hlive'
  exact ⟨key, live, _, calls, hkey, hlive, hlive'⟩

/-- **Frame.** What a mutation leaves alone. -/
structure Frame (t : Timetable) (m : Mutation) : Prop where
  stopCount : (t.apply m).1.stopCount = t.stopCount
  updatedAt : (t.apply m).1.updatedAt = t.updatedAt
  /-- Only the trip that the mutation is about can change -/
  others : ∀ key, t.target? m ≠ some key → (t.apply m).1.trip? key = t.trip? key
  /-- Taken out of service, it changes its state at most -/
  withdrawn : ∀ state warnings, m.withdrawal? = some state → (t.apply m).2 = .ok warnings →
    ∃ key live state', t.resolve m.trip = some key ∧ t.trip? key = some live ∧
      (t.apply m).1.trip? key = some { live with state := state' }
  /-- Rerouted, it changes its state and its calls at most -/
  rerouted : ∀ id calls warnings, m = .reroute id calls → (t.apply m).2 = .ok warnings →
    ∃ key live state' calls', t.resolve id = some key ∧ t.trip? key = some live ∧
      (t.apply m).1.trip? key = some { live with state := state', calls := calls' }
  /-- No key is lost, and only that of a trip which is added is new -/
  keys : ∀ key, (t.apply m).1.trip? key = none ↔ t.trip? key = none ∧ t.added? m ≠ some key
  fresh : ∀ key, t.added? m = some key → t.trip? key = none

/-- Every mutation keeps to its frame, whether it succeeds or fails. -/
theorem frame (t : Timetable) (m : Mutation) : t.Frame m where
  stopCount := stopCount_apply t m
  updatedAt := updatedAt_apply t m
  others _ h := trip?_apply_of_ne h
  withdrawn _ _ hm h := (succeeds_of_ok h).exists_withdrawn hm
  rerouted := by
    rintro id calls warnings rfl h
    exact (succeeds_of_ok h).exists_rerouted
  keys key := (edit_apply t m).trip?_eq_none_iff key
  fresh key h := by
    have hedit := edit_apply t m
    rw [h] at hedit
    exact hedit.fresh

/-! ### Runs -/

/-- A trip that is there stays the same trip, whatever batches are applied. -/
theorem exists_trip?_applyBatches {live : LiveTrip} (batches : List (List Mutation × Int))
    (h : t.trip? key = some live) :
    ∃ live', (t.applyBatches batches).trip? key = some live' ∧ live'.trip = live.trip := by
  refine applyBatches_preserves
    (P := fun u => ∃ live', u.trip? key = some live' ∧ live'.trip = live.trip)
    (fun hs hsame => ?_) (fun _ hsame => hsame) batches ⟨live, h, rfl⟩
  obtain ⟨live₁, hlive₁, hsame₁⟩ := hsame
  obtain ⟨live₂, hlive₂, hsame₂⟩ := hs.edit.exists_trip? hlive₁
  exact ⟨live₂, hlive₂, hsame₂.trans hsame₁⟩

/-- The trips of a run are those of before and one for each addition that succeeded. -/
theorem size_applyAll (t : Timetable) (ms : List Mutation) :
    (t.applyAll ms).1.trips.size = t.trips.size + (t.steps ms).countP Step.adds := by
  induction ms generalizing t with
  | nil => rfl
  | cons m ms ih =>
    have hstep : (t.apply m).1.trips.size = t.trips.size + if Step.adds ⟨t, m⟩ then 1 else 0 :=
      (edit_apply t m).size_eq
    have hrest := ih (t.apply m).1
    rw [applyAll_cons, steps, List.countP_cons, hrest, hstep]
    omega

/-- Noting the moment changes no trip. -/
theorem trips_applyBatch (t : Timetable) (batch : List Mutation) (moment : Int) :
    (t.applyBatch batch moment).1.trips = (t.applyAll batch).1.trips := by
  rw [applyBatch]
  dsimp only
  split_ifs <;> rfl

/-- The number of trips grows by those that are added. -/
theorem size_applyBatches (t : Timetable) (batches : List (List Mutation × Int)) :
    (t.applyBatches batches).trips.size =
      t.trips.size + (t.stepsOfBatches batches).countP Step.adds := by
  induction batches generalizing t with
  | nil => rfl
  | cons b batches ih =>
    have hbatch := size_applyAll t b.1
    have hrest := ih (t.applyBatch b.1 b.2).1
    rw [trips_applyBatch, hbatch] at hrest
    rw [stepsOfBatches, List.countP_append, ← Nat.add_assoc]
    exact hrest

/-! ### States -/

/-- In the list of all states each one occurs as often as there are trips in it. -/
private theorem count_states (t : Timetable) (state : TripState) :
    (t.trips.values.map LiveTrip.state).count state = t.countIn state := by
  rw [countIn, List.count, List.countP_map]
  rfl

/-- Each state has the number of the trips in it, if there are any. -/
theorem find?_stateCounts (t : Timetable) (state : TripState) :
    t.stateCounts.find? state = if t.countIn state = 0 then none else some (t.countIn state) := by
  rw [stateCounts, SortedMap.find?_tally, count_states]

/-- Every trip is counted in exactly one state. -/
theorem total_stateCounts (t : Timetable) : t.stateCounts.total = t.trips.size := by
  rw [stateCounts, SortedMap.total_tally, List.length_map, SortedMap.values, List.length_map]
  rfl

/-! ### All together -/

/-- **Conservation.** Every mutation keeps to its frame. Batches leave the record of every trip as
it is, and add as many trips as they have steps that add one. At any time every trip is counted in
one state, and each state has the number of the trips in it. -/
theorem conserved (t : Timetable) :
    (∀ m, t.Frame m) ∧
      (∀ batches key live, t.trip? key = some live →
        ∃ live', (t.applyBatches batches).trip? key = some live' ∧ live'.trip = live.trip) ∧
      (∀ batches, (t.applyBatches batches).trips.size =
        t.trips.size + (t.stepsOfBatches batches).countP Step.adds) ∧
      t.stateCounts.total = t.trips.size ∧
      ∀ state, t.stateCounts.find? state =
        if t.countIn state = 0 then none else some (t.countIn state) :=
  ⟨t.frame, fun batches _ _ h => exists_trip?_applyBatches batches h, t.size_applyBatches,
    t.total_stateCounts, t.find?_stateCounts⟩

/-- A trip is cancelled by its realtime id and then deleted, and of two attempts to add another trip
the second one fails. -/
theorem conserved_night_shuttle :
    let night : Trip := ⟨⟨"F", "N", by decide⟩, ⟨"F", "R", by decide⟩, some "rt", none⟩
    let shuttle : Trip := ⟨⟨"F", "S", by decide⟩, ⟨"F", "R", by decide⟩, none, none⟩
    let calls : List Call := [⟨0, 1, .hms 8 0 0, .hms 8 0 0⟩, ⟨1, 2, .hms 8 5 0, .hms 8 5 0⟩]
    let t := seed 2 [⟨night, calls⟩]
    let batches : List (List Mutation × Int) :=
      [([.cancel ⟨"F", "rt", by decide⟩, .addTrip shuttle calls], 0),
        ([.addTrip shuttle calls, .delete night.id], 60)]
    t.trip? night.id = some ⟨night, calls, .scheduled⟩ ∧
      (∃ live', (t.applyBatches batches).trip? night.id = some live' ∧ live'.trip = night) ∧
      (t.applyBatches batches).trips.size = 2 := by
  intro night shuttle calls t batches
  have hnight : t.trip? night.id = some ⟨night, calls, .scheduled⟩ := by decide
  have hadded : (t.stepsOfBatches batches).countP Step.adds = 1 := by decide
  obtain ⟨-, hrecords, hsize, -⟩ := conserved t
  refine ⟨hnight, hrecords batches night.id _ hnight, ?_⟩
  rw [hsize, hadded]
  decide

end Timetable

end Interchange
