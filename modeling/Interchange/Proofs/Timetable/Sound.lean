import Interchange.Proofs.Timetable.Run
import Interchange.Proofs.Timetable.Seed

/-!
# Sound timetables

Scheduled trips go into a timetable as the feed gives them, while calls that arrive by
mutations are validated. Both kinds are there from then on, since a trip that is taken out of
service keeps its calls. `Timetable.Sound` is what can be relied on all the same: it holds of
the timetable before any update (`Timetable.sound_seed`), every successful mutation keeps it
(`Timetable.Sound.of_succeeds`), and so does every run of batches
(`Timetable.Sound.applyBatches`).
-/

namespace Interchange

/-- What can be relied on about a live trip under a key. -/
structure LiveTrip.Sound (stopCount : Nat) (scheduled : List ScheduledTrip) (key : ScopedId)
    (live : LiveTrip) : Prop where
  keyed : live.trip.id = key
  /-- It calls at stops that there are -/
  known : ∀ c ∈ live.calls, c.stop < stopCount
  /-- Its calls are the scheduled ones, or valid -/
  calls : (∃ s ∈ scheduled, s.trip.id = key ∧ s.calls = live.calls) ∨ ValidCalls live.calls
  /-- Calls that came with an update are valid -/
  valid : live.state = .added ∨ live.state = .updated ∨ live.state = .modified →
    ValidCalls live.calls

/-- What can be relied on about a timetable. -/
structure Timetable.Sound (stopCount : Nat) (scheduled : List ScheduledTrip) (t : Timetable) :
    Prop where
  stopCount_eq : t.stopCount = stopCount
  trips : ∀ key live, t.trip? key = some live → live.Sound stopCount scheduled key

variable {stopCount : Nat} {scheduled : List ScheduledTrip} {key : ScopedId} {live : LiveTrip}

/-! ### Single trips -/

namespace LiveTrip

/-- A scheduled trip is sound if its calls are at stops that there are. -/
private theorem sound_live {s : ScheduledTrip} (hs : s ∈ scheduled)
    (hknown : ∀ c ∈ s.calls, c.stop < stopCount) :
    s.live.Sound stopCount scheduled s.trip.id where
  keyed := rfl
  known := hknown
  calls := .inl ⟨s, hs, rfl, rfl⟩
  valid := by rintro (h | h | h) <;> cases h

/-- Out of service, a trip keeps its calls, whichever kind they are of. -/
private theorem Sound.withdraw {state : TripState} (h : live.Sound stopCount scheduled key)
    (hstate : state = .canceled ∨ state = .deleted) :
    ({ live with state } : LiveTrip).Sound stopCount scheduled key where
  keyed := h.keyed
  known := h.known
  calls := h.calls
  valid := by
    rcases hstate with rfl | rfl <;> rintro (h | h | h) <;> cases h

/-- Valid calls at known stops are all that is asked of calls. -/
private theorem sound_of_valid (hkey : live.trip.id = key)
    (hknown : ∀ c ∈ live.calls, c.stop < stopCount)
    (hvalid : ValidCalls live.calls) : live.Sound stopCount scheduled key where
  keyed := hkey
  known := hknown
  calls := .inr hvalid
  valid := fun _ => hvalid

end LiveTrip

/-! ### Whole timetables -/

namespace Timetable

/-- Before any update all trips are sound. -/
theorem sound_seed (hknown : ∀ s ∈ scheduled, ∀ c ∈ s.calls, c.stop < stopCount) :
    (seed stopCount scheduled).Sound stopCount scheduled where
  stopCount_eq := stopCount_seed stopCount scheduled
  trips := by
    intro key live h
    obtain ⟨s, hs, rfl, rfl⟩ := exists_of_trip?_seed h
    exact LiveTrip.sound_live hs (hknown s hs)

/-- **One mutation.** The four changes that mutations make keep a timetable sound: what is
put in has been validated against the stops, and what is withdrawn keeps its calls. -/
theorem Sound.of_succeeds {t t' : Timetable} {m : Mutation} {warnings : List Warning}
    (hm : t.Succeeds m t' warnings) (h : t.Sound stopCount scheduled) :
    t'.Sound stopCount scheduled := by
  cases hm with
  | @withdrawn _ state key live hkind hfound hlive hfresh =>
    refine ⟨h.stopCount_eq, fun k live' hlive' => ?_⟩
    rcases trip?_modifyTrip_eq_some hlive' with ⟨-, old, hold, rfl⟩ | hold
    · exact (h.trips k old hold).withdraw (Mutation.eq_of_withdrawal? hkind)
    · exact h.trips k live' hold
  | alreadyWithdrawn => exact h
  | @rerouted id key calls live hfound hlive hknown hvalid =>
    refine ⟨h.stopCount_eq, fun k live' hlive' => ?_⟩
    rcases trip?_modifyTrip_eq_some hlive' with ⟨-, old, hold, rfl⟩ | hold
    · rw [h.stopCount_eq] at hknown
      exact LiveTrip.sound_of_valid (h.trips k old hold).keyed hknown hvalid
    · exact h.trips k live' hold
  | @added trip calls hfresh hvalid =>
    refine ⟨h.stopCount_eq, fun k live' hlive' => ?_⟩
    rcases trip?_putTrip_eq_some hlive' with ⟨hk, rfl⟩ | hold
    · refine LiveTrip.sound_of_valid hk.symm (fun c hc => ?_) hvalid
      rw [← h.stopCount_eq]
      exact (mem_knownCalls.mp hc).2
    · exact h.trips k live' hold

/-- A sound timetable is sound after any batches. -/
theorem Sound.applyBatches {t : Timetable} (h : t.Sound stopCount scheduled)
    (batches : List (List Mutation × Int)) :
    (t.applyBatches batches).Sound stopCount scheduled :=
  applyBatches_preserves Sound.of_succeeds (fun _ h => ⟨h.stopCount_eq, h.trips⟩) batches h

end Timetable

end Interchange
