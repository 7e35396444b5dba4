import Interchange.Proofs.Network.LiveTimetable

/-!
# Timetables in step with a network

Updates take trips out of service and give them other calls, and they add trips; they do not take
a scheduled trip away, put another one in its place, or change the calls of a trip that counts as
scheduled. `Timetable.Keeps` says so about a timetable and the trips that it was seeded with, and
`Network.InStep` what follows for a network and a live timetable that was seeded by it.
-/

namespace Interchange

/-! ### What updates keep of the schedule -/

/-- What a timetable keeps of the trips that it was seeded with. -/
structure Timetable.Keeps (scheduled : List ScheduledTrip) (t : Timetable) : Prop where
  present : ∀ s ∈ scheduled, ∃ live, t.trip? s.trip.id = some live ∧ live.trip = s.trip
  /-- A trip that counts as scheduled is one of them, with its calls -/
  scheduled : ∀ key live, t.trip? key = some live → live.state = .scheduled →
    ∃ s ∈ scheduled, s.trip.id = key ∧ s.trip = live.trip ∧ s.calls = live.calls

namespace Timetable

variable {scheduled : List ScheduledTrip} {stopCount : Nat} {t t' : Timetable}

private theorem keeps_seed (hids : (scheduled.map (·.trip.id)).Nodup) :
    (seed stopCount scheduled).Keeps scheduled where
  present s hs := ⟨s.live, trip?_seed_of_mem hids hs, rfl⟩
  scheduled := by
    intro key live hlive _
    obtain ⟨s, hs, hkey, rfl⟩ := exists_of_trip?_seed hlive
    exact ⟨s, hs, hkey, rfl, rfl⟩

/-- A trip may be changed as long as it stays the same trip and does not count as scheduled. -/
private theorem Keeps.modifyTrip {f : LiveTrip → LiveTrip} (h : t.Keeps scheduled) (key : ScopedId)
    (htrip : ∀ live, (f live).trip = live.trip)
    (hstate : ∀ live, t.trip? key = some live → (f live).state ≠ .scheduled) :
    (t.modifyTrip key f).Keeps scheduled where
  present := by
    intro s hs
    obtain ⟨live, hlive, hsame⟩ := h.present s hs
    rw [trip?_modifyTrip, hlive]
    split_ifs
    · exact ⟨f live, rfl, (htrip live).trans hsame⟩
    · exact ⟨live, rfl, hsame⟩
  scheduled := by
    intro k live hlive hscheduled
    rcases trip?_modifyTrip_eq_some hlive with ⟨rfl, old, hold, rfl⟩ | hold
    · exact absurd hscheduled (hstate old hold)
    · exact h.scheduled k live hold hscheduled

/-- **One mutation.** No change that a mutation makes touches what is kept of the schedule. -/
theorem Keeps.of_succeeds {m : Mutation} {warnings : List Warning}
    (hm : t.Succeeds m t' warnings) (h : t.Keeps scheduled) : t'.Keeps scheduled := by
  cases hm with
  | withdrawn hkind =>
    refine h.modifyTrip _ (fun _ => rfl) fun live _ hscheduled => ?_
    rcases Mutation.eq_of_withdrawal? hkind with rfl | rfl <;> cases hscheduled
  | alreadyWithdrawn => exact h
  | rerouted =>
    refine h.modifyTrip _ (fun _ => rfl) fun live _ => ?_
    dsimp only
    split_ifs <;> exact nofun
  | @added trip calls hfresh =>
    refine ⟨fun s hs => ?_, fun k live hlive hscheduled => ?_⟩
    · obtain ⟨live, hlive, hsame⟩ := h.present s hs
      -- the id is fresh, so no scheduled trip has it
      have hne : s.trip.id ≠ trip.id := by
        intro heq
        rw [heq, hfresh] at hlive
        cases hlive
      exact ⟨live, by rw [trip?_putTrip, if_neg hne, hlive], hsame⟩
    · rcases trip?_putTrip_eq_some hlive with ⟨-, rfl⟩ | hold
      · cases hscheduled
      · exact h.scheduled k live hold hscheduled

/-- What a timetable was seeded with is kept through any batches. -/
theorem Keeps.applyBatches (h : t.Keeps scheduled) (batches : List (List Mutation × Int)) :
    (t.applyBatches batches).Keeps scheduled :=
  applyBatches_preserves Keeps.of_succeeds (fun _ h => ⟨h.present, h.scheduled⟩) batches h

end Timetable

/-! ### Networks -/

namespace Network

variable {d : Description} {settings : Settings} {moment : DateTime} {n : Network}

/-- **In step.** What ties a live timetable to a network. -/
structure InStep (n : Network) (t : Timetable) : Prop where
  stopCount : t.stopCount = n.stops.length
  /-- Live trips call at stops of the network -/
  calls : ∀ key live, t.trip? key = some live → ∀ c ∈ live.calls, c.stop < n.stops.length
  /-- The trips of the network are there, each under its id -/
  present : ∀ s ∈ n.trips, ∃ live, t.trip? s.trip.id = some live ∧ live.trip = s.trip
  /-- Trips that count as scheduled are those of the network, with the same calls -/
  scheduled : ∀ key live, t.trip? key = some live → live.state = .scheduled →
    ∃ s ∈ n.trips, s.trip.id = key ∧ s.trip = live.trip ∧ s.calls = live.calls

/-- The network has been built from some description. -/
def IsBuilt (n : Network) : Prop :=
  ∃ d settings moment, build d settings moment = .ok n

/-- A network has one trip under each id. -/
theorem Built.nodup_ids (h : Built d settings moment n) : (n.trips.map (·.trip.id)).Nodup := by
  rw [h.trips]
  exact d.nodup_ids_activeTrips moment

/-- Batches leave the timetable of a network in step with it. -/
theorem IsBuilt.inStep_applyBatches (h : n.IsBuilt) (batches : List (List Mutation × Int)) :
    n.InStep (n.timetable.applyBatches batches) := by
  obtain ⟨d, settings, moment, hbuild⟩ := h
  have hbuilt := of_build hbuild
  have hseed : n.timetable.Keeps n.trips := Timetable.keeps_seed hbuilt.nodup_ids
  have hsound := hbuilt.sound_timetable.applyBatches batches
  have hkeeps := hseed.applyBatches batches
  exact ⟨hsound.stopCount_eq, fun key live hlive => (hsound.trips key live hlive).known,
    hkeeps.present, hkeeps.scheduled⟩

end Network

end Interchange
