import Interchange.Proofs.Network.Build
import Interchange.Proofs.Timetable.Sound

/-!
# Live timetables of a network

Building a network checks that its trips call at its stops, but not that their times make
sense; mutations are checked for both. `Network.sound_applyBatches` says what this makes of the
live timetable of a network, however many batches have been applied to it.
-/

namespace Interchange

namespace Network

/-- The timetable of a network that has been built is sound before any update. -/
theorem Built.sound_timetable {d : Description} {settings : Settings} {moment : DateTime}
    {n : Network} (h : Built d settings moment n) :
    n.timetable.Sound n.stops.length n.trips :=
  Timetable.sound_seed h.calls

/-- **Live timetables are sound.** The trips of a network have different ids, and in every
timetable that batches make of its own one, each live trip has the key by which it is found,
calls at stops of the network, and has the scheduled calls of its id or valid ones; it has
valid ones if it has been added or rerouted. -/
theorem sound_applyBatches {d : Description} {settings : Settings} {moment : DateTime}
    {n : Network} (h : build d settings moment = .ok n) :
    (n.trips.map (·.trip.id)).Nodup ∧
      ∀ batches, (n.timetable.applyBatches batches).Sound n.stops.length n.trips := by
  have hbuilt := of_build h
  refine ⟨?_, fun batches => hbuilt.sound_timetable.applyBatches batches⟩
  rw [hbuilt.trips]
  exact d.nodup_ids_activeTrips moment

/-- Two stops, and a trip that is scheduled to leave the first of them before it gets there. -/
def twoStops : Description where
  stops := [⟨⟨"N", "A", by decide⟩, "Alpha", ⟨60.1, 24.9⟩⟩,
    ⟨⟨"N", "B", by decide⟩, "Beta", ⟨60.2, 24.9⟩⟩]
  trips := [⟨.any, [], ⟨⟨⟨"N", "T", by decide⟩, ⟨"N", "R", by decide⟩, none, none⟩,
    [⟨0, 1, .hms 8 10 0, .hms 8 0 0⟩, ⟨1, 2, .hms 8 30 0, .hms 8 30 0⟩]⟩⟩]

theorem sound_applyBatches_twoStops :
    let moment : DateTime := ⟨2024, 5, 1, 0, 0, 0, 0, by decide, by decide, by decide⟩
    let batches := [([.cancel ⟨"N", "T", by decide⟩], 0), ([.delete ⟨"N", "T", by decide⟩], 60)]
    ∃ n, build twoStops (.default 1) moment = .ok n ∧
      (n.timetable.applyBatches batches).Sound 2 n.trips :=
  ⟨_, rfl, (sound_applyBatches (d := twoStops) rfl).2 _⟩

end Network

end Interchange
