import Interchange.Proofs.Timetable.Resolution
import Interchange.Proofs.Timetable.Run

/-!
# What a mutation reads and writes

A mutation is about one trip, its *target* (`Timetable.target?`): the trip that its id means, or
the trip that it adds. It changes no other trip (`Timetable.trip?_apply_of_ne`), and what becomes
of it depends on nothing but its target and the number of stops (`Timetable.apply_local`).
-/

namespace Interchange

/-- Whether a mutation adds a trip; any other is about a trip that is there. -/
def Mutation.isAddition : Mutation → Bool
  | .addTrip _ _ => true
  | .cancel _ | .delete _ | .reroute _ _ => false

theorem Mutation.isAddition_of_withdrawal? {m : Mutation} {state : TripState}
    (h : m.withdrawal? = some state) : m.isAddition = false := by
  cases m <;> first | rfl | cases h

namespace Timetable

variable {t u : Timetable} {m : Mutation} {k : ScopedId}

/-- The key of the trip that a mutation changes or adds if it can be applied. -/
def target? (t : Timetable) : Mutation → Option ScopedId
  | .addTrip trip _ => if t.trip? trip.id = none then some trip.id else none
  | .cancel id | .delete id | .reroute id _ => t.resolve id

theorem target?_eq_resolve (h : m.isAddition = false) : t.target? m = t.resolve m.trip := by
  cases m <;> first | rfl | cases h

private theorem target?_addTrip_of_none {trip : Trip} {calls : List Call}
    (h : t.trip? trip.id = none) :
    t.target? (.addTrip trip calls) = some trip.id := if_pos h

/-- The target of an addition is its trip, as long as that is not there. -/
theorem target?_addTrip_eq_some {trip : Trip} {calls : List Call}
    (h : t.target? (.addTrip trip calls) = some k) : t.trip? trip.id = none ∧ trip.id = k := by
  rw [target?] at h
  split_ifs at h with hnone
  exact ⟨hnone, Option.some.inj h⟩

/-! ### Writing -/

/-- Only the target of a mutation is changed. -/
theorem trip?_apply_of_ne (h : t.target? m ≠ some k) : (t.apply m).1.trip? k = t.trip? k := by
  rcases apply_cases t m with ⟨e, hm⟩ | ⟨t', warnings, hm, hs⟩
  · rw [hm]
  · rw [hm]
    cases hs with
    | withdrawn hkind hfound =>
      rw [target?_eq_resolve (Mutation.isAddition_of_withdrawal? hkind), hfound] at h
      exact (trip?_modifyTrip ..).trans (if_neg fun hk => h (congrArg some hk.symm))
    | alreadyWithdrawn => rfl
    | rerouted hfound =>
      rw [target?, hfound] at h
      exact (trip?_modifyTrip ..).trans (if_neg fun hk => h (congrArg some hk.symm))
    | added hfresh =>
      rw [target?_addTrip_of_none hfresh] at h
      exact (trip?_putTrip ..).trans (if_neg fun hk => h (congrArg some hk.symm))

/-! ### Reading -/

/-- Taking a trip out of service looks at the trip that the id means and at nothing else. -/
private theorem withdraw_local {id : ScopedId} (hid : t.resolve id = u.resolve id)
    (hsame : ∀ k, t.resolve id = some k → t.trip? k = u.trip? k) (state : TripState) :
    (t.withdraw id state).2 = (u.withdraw id state).2 ∧
      ∀ k, t.resolve id = some k →
        (t.withdraw id state).1.trip? k = (u.withdraw id state).1.trip? k := by
  cases hkey : t.resolve id with
  | none =>
    rw [withdraw, withdraw, ← hid, hkey]
    refine ⟨rfl, fun k hk => ?_⟩
    cases hk
  | some key =>
    obtain ⟨live, hlive⟩ := exists_trip?_of_resolve hkey
    have hlive' : u.trip? key = some live := (hsame key hkey).symm.trans hlive
    simp only [withdraw, ← hid, hkey, hlive, hlive']
    split_ifs
    · exact ⟨rfl, fun k hk => hsame k (hkey.trans hk)⟩
    · refine ⟨rfl, fun k hk => ?_⟩
      rw [trip?_modifyTrip, trip?_modifyTrip, hsame k (hkey.trans hk)]

/-- Rerouting looks at the trip and at the number of stops. -/
private theorem reroute_local {id : ScopedId} (hstops : t.stopCount = u.stopCount)
    (hid : t.resolve id = u.resolve id)
    (hsame : ∀ k, t.resolve id = some k → t.trip? k = u.trip? k) (calls : List Call) :
    (t.reroute id calls).2 = (u.reroute id calls).2 ∧
      ∀ k, t.resolve id = some k →
        (t.reroute id calls).1.trip? k = (u.reroute id calls).1.trip? k := by
  cases hkey : t.resolve id with
  | none =>
    rw [reroute, reroute, ← hid, hkey]
    refine ⟨rfl, fun k hk => ?_⟩
    cases hk
  | some key =>
    obtain ⟨live, hlive⟩ := exists_trip?_of_resolve hkey
    have hlive' : u.trip? key = some live := (hsame key hkey).symm.trans hlive
    have hsame' : ∀ k, some key = some k → t.trip? k = u.trip? k := fun k hk =>
      hsame k (hkey.trans hk)
    simp only [reroute, ← hid, hkey, hlive, hlive', ← hstops]
    cases calls.findIdx? fun c => t.stopCount ≤ c.stop with
    | some n => exact ⟨rfl, hsame'⟩
    | none =>
      cases validateCalls key calls with
      | error e => exact ⟨rfl, hsame'⟩
      | ok =>
        refine ⟨rfl, fun k hk => ?_⟩
        rw [trip?_modifyTrip, trip?_modifyTrip, hsame' k hk]

/-- Adding a trip looks at the number of stops and whether the trip is there. -/
private theorem addTrip_local {trip : Trip} (hstops : t.stopCount = u.stopCount)
    (hid : t.trip? trip.id = none ↔ u.trip? trip.id = none) (calls : List Call) :
    (t.addTrip trip calls).2 = (u.addTrip trip calls).2 ∧
      (t.trip? trip.id = none →
        (t.addTrip trip calls).1.trip? trip.id = (u.addTrip trip calls).1.trip? trip.id) := by
  have hknown : u.knownCalls calls = t.knownCalls calls := by rw [knownCalls, knownCalls, hstops]
  have hcontains : u.trips.contains trip.id = t.trips.contains trip.id := by
    rw [Bool.eq_iff_iff, ← Bool.not_eq_false, ← Bool.not_eq_false, contains_eq_false_iff,
      contains_eq_false_iff, hid]
  simp only [addTrip, hknown, hcontains]
  split_ifs with hold hnone
  · exact ⟨rfl, fun h => h.trans (hid.mp h).symm⟩
  · exact ⟨rfl, fun h => h.trans (hid.mp h).symm⟩
  all_goals
    cases validateCalls trip.id (t.knownCalls calls) with
    | error e => exact ⟨rfl, fun h => h.trans (hid.mp h).symm⟩
    | ok => exact ⟨rfl, fun _ => by rw [trip?_putTrip, trip?_putTrip, if_pos rfl, if_pos rfl]⟩

/-- **Locality.** Where a mutation has the same target and finds the same there, it has the same
outcome and leaves the same there. -/
theorem apply_local (hstops : t.stopCount = u.stopCount) (htarget : t.target? m = u.target? m)
    (hsame : ∀ k, t.target? m = some k → t.trip? k = u.trip? k) :
    (t.apply m).2 = (u.apply m).2 ∧
      ∀ k, t.target? m = some k → (t.apply m).1.trip? k = (u.apply m).1.trip? k := by
  cases m with
  | cancel id => exact withdraw_local htarget hsame .canceled
  | delete id => exact withdraw_local htarget hsame .deleted
  | reroute id calls => exact reroute_local hstops htarget hsame calls
  | addTrip trip calls =>
    -- having a target is being fresh, so the trip is there in both or in neither
    have hid : t.trip? trip.id = none ↔ u.trip? trip.id = none := by
      rw [target?, target?] at htarget
      split_ifs at htarget with ht hu hu
      · exact iff_of_true ht hu
      · exact iff_of_false ht hu
    obtain ⟨houtcome, htrip⟩ := addTrip_local hstops hid calls
    refine ⟨houtcome, fun k hk => ?_⟩
    obtain ⟨hnone, rfl⟩ := target?_addTrip_eq_some hk
    exact htrip hnone

end Timetable

end Interchange
