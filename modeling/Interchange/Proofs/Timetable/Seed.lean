import Interchange.Proofs.Timetable.Mutation
import Mathlib.Data.List.Induction

/-!
# The timetable before any update

`Timetable.seed` puts in scheduled trips one after the other. Under each key stands a trip with
that id, as it is scheduled (`exists_of_trip?_seed`), and if no two trips share an id, every
trip is there (`trip?_seed_of_mem`). If they ascend by id, they are the entries of the timetable
in their order (`entries_seed`).
-/

namespace Interchange

/-- A scheduled trip as a live one, before any update. -/
def ScheduledTrip.live (s : ScheduledTrip) : LiveTrip := ⟨s.trip, s.calls, .scheduled⟩

namespace Timetable

variable {stopCount : Nat} {trips : List ScheduledTrip} {key : ScopedId} {live : LiveTrip}

private theorem seed_concat (stopCount : Nat) (trips : List ScheduledTrip) (s : ScheduledTrip) :
    seed stopCount (trips ++ [s]) = (seed stopCount trips).putTrip s.live := by
  rw [seed, List.foldl_append]
  rfl

@[simp]
theorem stopCount_seed (stopCount : Nat) (trips : List ScheduledTrip) :
    (seed stopCount trips).stopCount = stopCount := by
  induction trips using List.reverseRecOn with
  | nil => rfl
  | append_singleton trips s ih => rw [seed_concat, stopCount_putTrip, ih]

/-- Every trip of a seeded timetable has been scheduled. -/
theorem exists_of_trip?_seed (h : (seed stopCount trips).trip? key = some live) :
    ∃ s ∈ trips, s.trip.id = key ∧ s.live = live := by
  induction trips using List.reverseRecOn with
  | nil => cases h
  | append_singleton trips s ih =>
    rw [seed_concat, trip?_putTrip] at h
    split_ifs at h with hkey
    · exact ⟨s, by simp, hkey.symm, Option.some.inj h⟩
    · obtain ⟨s', hs', hlive⟩ := ih h
      exact ⟨s', List.mem_append_left _ hs', hlive⟩

/-- Nothing is lost if no two trips share an id. -/
theorem trip?_seed_of_mem {s : ScheduledTrip} (hids : (trips.map (·.trip.id)).Nodup)
    (hs : s ∈ trips) : (seed stopCount trips).trip? s.trip.id = some s.live := by
  induction trips using List.reverseRecOn with
  | nil => cases hs
  | append_singleton trips s' ih =>
    rw [List.map_append, List.nodup_append] at hids
    obtain ⟨hids, -, hnew⟩ := hids
    rw [seed_concat, trip?_putTrip]
    rcases List.mem_append.mp hs with hs | hs
    · have hne : s.trip.id ≠ s'.trip.id :=
        hnew _ (List.mem_map_of_mem hs) _ (List.mem_map_of_mem List.mem_cons_self)
      rw [if_neg (show s.trip.id ≠ s'.live.trip.id from hne), ih hids hs]
    · obtain rfl := List.mem_singleton.mp hs
      exact if_pos rfl

/-- **Entries.** If the trips ascend by id, each makes one entry, under its own id. -/
theorem entries_seed (hids : (trips.map (·.trip.id)).Nodup)
    (hasc : trips.Pairwise fun a b => compare a.trip.id b.trip.id = .lt) :
    (seed stopCount trips).trips.entries = trips.map fun s => (s.trip.id, s.live) := by
  have hentries : (trips.map fun s => (s.trip.id, s.live)).Pairwise fun a b =>
      compare a.1 b.1 = .lt := List.pairwise_map.mpr hasc
  -- the list is a map by itself, and maps that find the same are equal
  suffices h : (seed stopCount trips).trips = ⟨_, hentries⟩ from congrArg SortedMap.entries h
  refine SortedMap.ext_find? fun key => Option.ext fun live => ?_
  rw [SortedMap.find?_eq_some_iff (m := ⟨_, hentries⟩), List.mem_map]
  constructor
  · intro h
    obtain ⟨s, hs, rfl, rfl⟩ := exists_of_trip?_seed h
    exact ⟨s, hs, rfl⟩
  · rintro ⟨s, hs, hentry⟩
    obtain ⟨rfl, rfl⟩ := Prod.mk.inj hentry
    exact trip?_seed_of_mem hids hs

theorem state_of_trip?_seed (h : (seed stopCount trips).trip? key = some live) :
    live.state = .scheduled := by
  obtain ⟨s, -, -, rfl⟩ := exists_of_trip?_seed h
  rfl

end Timetable

end Interchange
