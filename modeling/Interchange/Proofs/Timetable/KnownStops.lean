import Interchange.Proofs.Timetable.Meaning

/-!
# Adding a trip with unknown stops

A trip that is added is checked and stored without its calls at unknown stops, so it matters only
what is left: as long as something is, or nothing was left out, adding the trip does what adding it
with the known calls alone would have done, but for the warning (`Timetable.alike_addTrip`). What is
left out may make the rest valid or invalid. As what is stored has passed the checks of a reroute,
the trip can be rerouted to its own calls (`Timetable.reroute_putTrip_self`).
-/

namespace Interchange

namespace Timetable

variable {t t' : Timetable} {trip : Trip} {calls : List Call}

/-! ### What is left -/

theorem knownCalls_knownCalls (t : Timetable) (calls : List Call) :
    t.knownCalls (t.knownCalls calls) = t.knownCalls calls := by
  simp [knownCalls]

/-- A trip that is there is not added again, whatever its calls. -/
private theorem addTrip_of_trip? {live : LiveTrip} (h : t.trip? trip.id = some live)
    (calls : List Call) :
    t.addTrip trip calls = (t, .error (.forTrip trip.id .tripAlreadyExists)) := by
  have hthere : t.trips.contains trip.id = true := Option.isSome_of_eq_some h
  rw [addTrip, if_pos hthere]

/-- If something is left, or there was nothing, what is left is checked and stored. -/
private theorem addTrip_of_fresh (hfresh : t.trip? trip.id = none)
    (h : t.knownCalls calls = [] → calls = []) :
    t.addTrip trip calls =
      match validateCalls trip.id (t.knownCalls calls) with
      | .error e => (t, .error e)
      | .ok () => (t.putTrip ⟨trip, t.knownCalls calls, .added⟩,
          .ok (if (t.knownCalls calls).length < calls.length then
            [.unknownStopsRemovedFromAddedTrip] else [])) := by
  have hnew := Bool.eq_false_iff.mp (contains_eq_false_iff.mpr hfresh)
  have hsome : ¬ (!calls.isEmpty && (t.knownCalls calls).isEmpty) = true := by simpa using mt h
  rw [addTrip, if_neg hnew]
  exact if_neg hsome

/-- If nothing is left of what there was, the trip is not added. -/
private theorem addTrip_of_knownCalls_eq_nil (hfresh : t.trip? trip.id = none) (hcalls : calls ≠ [])
    (h : t.knownCalls calls = []) :
    t.addTrip trip calls = (t, .error (.forTrip trip.id .noValidStops)) := by
  have hnew := Bool.eq_false_iff.mp (contains_eq_false_iff.mpr hfresh)
  have hnone : (!calls.isEmpty && (t.knownCalls calls).isEmpty) = true := by simp [h, hcalls]
  simp only [addTrip, if_neg hnew, if_pos hnone]

/-! ### With and without the unknown stops -/

/-- **Alike.** A trip that was added with some calls, and with the known ones alone: both fail for
the same reason, or the timetables are the same and only the first addition may have a warning, if
a call was left out. -/
inductive Alike (leftOut : Prop) [Decidable leftOut] :
    Timetable × Outcome → Timetable × Outcome → Prop
  | failed (t : Timetable) (e : UpdateError) : Alike leftOut (t, .error e) (t, .error e)
  | added (t : Timetable) :
      Alike leftOut (t, .ok (if leftOut then [.unknownStopsRemovedFromAddedTrip] else []))
        (t, .ok [])

/-- An addition with all calls and one with the known calls are alike, unless none is known. -/
private theorem alike_addTrip (t : Timetable) (trip : Trip)
    (h : t.knownCalls calls = calls ∨ t.knownCalls calls ≠ []) :
    Alike ((t.knownCalls calls).length < calls.length) (t.addTrip trip calls)
      (t.addTrip trip (t.knownCalls calls)) := by
  cases hthere : t.trip? trip.id with
  | some live =>
    rw [addTrip_of_trip? hthere, addTrip_of_trip? hthere]
    exact .failed t _
  | none =>
    have hcalls : t.knownCalls calls = [] → calls = [] := by
      intro hnil
      rcases h with h | h
      · exact h.symm.trans hnil
      · exact absurd hnil h
    have hagain : t.knownCalls (t.knownCalls calls) = [] → t.knownCalls calls = [] := by
      rw [knownCalls_knownCalls]
      exact id
    rw [addTrip_of_fresh hthere hcalls, addTrip_of_fresh hthere hagain, knownCalls_knownCalls,
      if_neg (Nat.lt_irrefl _)]
    cases validateCalls trip.id (t.knownCalls calls) with
    | error e => exact .failed t e
    | ok => exact .added _

/-! ### Rerouting a trip to its own calls -/

private theorem Succeeds.validCalls {warnings : List Warning}
    (hs : t.Succeeds (.addTrip trip calls) t' warnings) : ValidCalls (t.knownCalls calls) := by
  cases hs with
  | withdrawn hm => cases hm
  | alreadyWithdrawn hm => cases hm
  | added _ hvalid => exact hvalid

/-- Only the state of the trip changes. -/
theorem reroute_putTrip_self (live : LiveTrip) (hknown : ∀ c ∈ live.calls, c.stop < t.stopCount)
    (hvalid : ValidCalls live.calls) :
    ∃ t', (t.putTrip live).apply (.reroute live.trip.id live.calls) = (t', .ok []) ∧
      t'.trip? live.trip.id = some { live with state := .updated } := by
  have hlive : (t.putTrip live).trip? live.trip.id = some live :=
    (trip?_putTrip t live _).trans (if_pos rfl)
  refine ⟨_, apply_of_succeeds (.rerouted (resolve_of_trip? hlive) hlive hknown hvalid), ?_⟩
  have hstops : live.stops = live.calls.map Call.stop := rfl
  rw [trip?_modifyTrip, if_pos rfl, hlive, Option.map_some, if_pos hstops]

/-- **Unknown stops.** Calls at unknown stops are as good as not there when a trip is added, but for
the warning, unless nothing is left. What is stored are the others in their order, and the trip can
be rerouted to them. -/
theorem addTrip_sees_knownCalls (t : Timetable) (trip : Trip) (calls : List Call) :
    let known := t.knownCalls calls
    ((known = calls ∨ known ≠ []) →
        Alike (known.length < calls.length) (t.apply (.addTrip trip calls))
          (t.apply (.addTrip trip known))) ∧
      (calls ≠ [] → known = [] →
        t.apply (.addTrip trip calls) = (t, .error (.forTrip trip.id
          (if (t.trip? trip.id).isSome then .tripAlreadyExists else .noValidStops)))) ∧
      ∀ t' warnings, t.apply (.addTrip trip calls) = (t', .ok warnings) →
        t'.trip? trip.id = some ⟨trip, known, .added⟩ ∧
          ∃ t'', t'.apply (.reroute trip.id known) = (t'', .ok []) ∧
            t''.trip? trip.id = some ⟨trip, known, .updated⟩ := by
  intro known
  refine ⟨fun h => alike_addTrip t trip h, fun hcalls hnone => ?_, fun t' warnings h => ?_⟩
  · cases hthere : t.trip? trip.id with
    | some live => exact addTrip_of_trip? hthere calls
    | none => exact addTrip_of_knownCalls_eq_nil hthere hcalls hnone
  · have hs := apply_eq_ok_iff.mp h
    obtain ⟨-, rfl⟩ := hs.eq_putTrip
    refine ⟨(trip?_putTrip t _ _).trans (if_pos rfl), ?_⟩
    exact reroute_putTrip_self ⟨trip, known, .added⟩
      (fun c hc => (mem_knownCalls.mp hc).2) hs.validCalls

/-- A bus that is sent with a stop in the middle that nobody knows: its sequence numbers and times
fit only without it. Of a bus with unknown stops alone nothing is left. -/
theorem addTrip_sees_knownCalls_bus :
    let bus : Trip := ⟨⟨"F", "B", by decide⟩, ⟨"F", "R", by decide⟩, none, none⟩
    let first : Call := ⟨0, 1, .hms 8 0 0, .hms 8 0 0⟩
    let unknown : Call := ⟨7, 1, .hms 7 30 0, .hms 7 0 0⟩
    let last : Call := ⟨1, 2, .hms 8 10 0, .hms 8 10 0⟩
    let t := empty 2
    Alike (2 < 3) (t.apply (.addTrip bus [first, unknown, last]))
        (t.apply (.addTrip bus [first, last])) ∧
      t.apply (.addTrip bus [unknown]) = (t, .error (.forTrip bus.id .noValidStops)) ∧
      (t.apply (.addTrip bus [first, unknown, last])).1.trip? bus.id =
        some ⟨bus, [first, last], .added⟩ := by
  intro bus first unknown last t
  have hknown : t.knownCalls [first, unknown, last] = [first, last] := by decide
  obtain ⟨halike, -, hstored⟩ := addTrip_sees_knownCalls t bus [first, unknown, last]
  obtain ⟨-, hnone, -⟩ := addTrip_sees_knownCalls t bus [unknown]
  refine ⟨?_, ?_, ?_⟩
  · rw [hknown] at halike
    exact halike (.inr (by decide))
  · exact hnone (by decide) (by decide)
  · rw [hknown] at hstored
    exact (hstored _ [.unknownStopsRemovedFromAddedTrip] (Prod.ext rfl (by decide))).1

end Timetable

end Interchange
