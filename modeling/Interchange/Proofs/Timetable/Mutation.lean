import Interchange.Proofs.Timetable.Calls

/-!
# What a mutation does

A mutation either fails, and then the timetable is as it was (`apply_of_error`), or it makes
one of four changes. `Timetable.Succeeds` lists these changes with everything that is known
when they are made, and `apply_eq_ok_iff` says that the list is complete and exact. The proofs
about runs of mutations split on `Succeeds` and never look into `apply`.
-/

namespace Interchange

/-- The state into which a mutation puts a trip that it takes out of service. -/
def Mutation.withdrawal? : Mutation → Option TripState
  | .cancel _ => some .canceled
  | .delete _ => some .deleted
  | .reroute _ _ | .addTrip _ _ => none

/-- Trips are taken out of service in two ways only. -/
theorem Mutation.eq_of_withdrawal? {m : Mutation} {state : TripState}
    (h : m.withdrawal? = some state) : state = .canceled ∨ state = .deleted := by
  cases m <;> simp_all [withdrawal?]

namespace Timetable

variable {t t' : Timetable} {m : Mutation} {id key : ScopedId}

/-! ### The view of a changed timetable -/

@[simp]
theorem trip?_modifyTrip (t : Timetable) (key k : ScopedId) (f : LiveTrip → LiveTrip) :
    (t.modifyTrip key f).trip? k = if k = key then (t.trip? k).map f else t.trip? k :=
  SortedMap.find?_modify t.trips key k f

@[simp]
theorem stopCount_modifyTrip (t : Timetable) (key : ScopedId) (f : LiveTrip → LiveTrip) :
    (t.modifyTrip key f).stopCount = t.stopCount := rfl

@[simp]
theorem trip?_putTrip (t : Timetable) (live : LiveTrip) (k : ScopedId) :
    (t.putTrip live).trip? k = if k = live.trip.id then some live else t.trip? k :=
  SortedMap.find?_insert t.trips live.trip.id k live

@[simp]
theorem stopCount_putTrip (t : Timetable) (live : LiveTrip) :
    (t.putTrip live).stopCount = t.stopCount := rfl

/-- A trip in a changed timetable is the changed one, or was there before. -/
theorem trip?_modifyTrip_eq_some {f : LiveTrip → LiveTrip} {k : ScopedId} {live : LiveTrip}
    (h : (t.modifyTrip key f).trip? k = some live) :
    (k = key ∧ ∃ old, t.trip? k = some old ∧ f old = live) ∨ t.trip? k = some live := by
  rw [trip?_modifyTrip] at h
  by_cases hk : k = key
  · rw [if_pos hk] at h
    exact .inl ⟨hk, Option.map_eq_some_iff.mp h⟩
  · rw [if_neg hk] at h
    exact .inr h

/-- A trip in a timetable into which one was put is that one, or was there before. -/
theorem trip?_putTrip_eq_some {new live : LiveTrip} {k : ScopedId}
    (h : (t.putTrip new).trip? k = some live) :
    (k = new.trip.id ∧ new = live) ∨ t.trip? k = some live := by
  rw [trip?_putTrip] at h
  by_cases hk : k = new.trip.id
  · rw [if_pos hk] at h
    exact .inl ⟨hk, Option.some.inj h⟩
  · rw [if_neg hk] at h
    exact .inr h

theorem contains_eq_false_iff {k : ScopedId} :
    t.trips.contains k = false ↔ t.trip? k = none :=
  Option.isSome_eq_false_iff.trans Option.isNone_iff_eq_none

theorem mem_knownCalls {calls : List Call} {c : Call} :
    c ∈ t.knownCalls calls ↔ c ∈ calls ∧ c.stop < t.stopCount := by
  simp [knownCalls]

/-- No call is found at an unknown stop if all stops are known. -/
theorem findIdx?_unknownStop_eq_none_iff {calls : List Call} :
    (calls.findIdx? fun c => t.stopCount ≤ c.stop) = none ↔ ∀ c ∈ calls, c.stop < t.stopCount := by
  simp only [List.findIdx?_eq_none_iff, decide_eq_false_iff_not, Nat.not_le]

/-- An id resolves to the key of a trip that is there, so looking the trip up cannot fail. -/
theorem exists_trip?_of_resolve (h : t.resolve id = some key) :
    ∃ live, t.trip? key = some live := by
  rw [resolve] at h
  split_ifs at h with hid
  · obtain rfl := Option.some.inj h
    exact Option.isSome_iff_exists.mp hid
  · obtain ⟨⟨k, live⟩, hfind, rfl⟩ := Option.map_eq_some_iff.mp h
    exact ⟨live, SortedMap.find?_eq_some_iff.mpr (List.mem_of_find?_eq_some hfind)⟩

/-! ### The changes that mutations make -/

/-- **The effects of mutations.** `t.Succeeds m t' warnings` says that `m` can be applied to
`t`, which leaves `t'` and raises `warnings`. -/
inductive Succeeds (t : Timetable) : Mutation → Timetable → List Warning → Prop
  /-- A trip in service, or a cancelled one that is deleted, gets its new state -/
  | withdrawn {m : Mutation} {state : TripState} {key : ScopedId} {live : LiveTrip}
      (kind : m.withdrawal? = some state) (found : t.resolve m.trip = some key)
      (trip : t.trip? key = some live) (fresh : ¬ (live.state = state ∨ live.state = .deleted)) :
      Succeeds t m (t.modifyTrip key fun l => { l with state }) []
  /-- A trip that is out of service stays as it is -/
  | alreadyWithdrawn {m : Mutation} {state : TripState} {key : ScopedId} {live : LiveTrip}
      (kind : m.withdrawal? = some state) (found : t.resolve m.trip = some key)
      (trip : t.trip? key = some live) (old : live.state = state ∨ live.state = .deleted) :
      Succeeds t m t [.noOpCancellation]
  /-- A trip gets valid calls at stops that there are -/
  | rerouted {id key : ScopedId} {calls : List Call} {live : LiveTrip}
      (found : t.resolve id = some key) (trip : t.trip? key = some live)
      (known : ∀ c ∈ calls, c.stop < t.stopCount) (valid : ValidCalls calls) :
      Succeeds t (.reroute id calls)
        (t.modifyTrip key fun l =>
          { l with
            calls
            state := if live.stops = calls.map Call.stop then .updated else .modified })
        []
  /-- A trip under a new id is put in with those of its calls that are at known stops -/
  | added {trip : Trip} {calls : List Call}
      (fresh : t.trip? trip.id = none) (valid : ValidCalls (t.knownCalls calls)) :
      Succeeds t (.addTrip trip calls) (t.putTrip ⟨trip, t.knownCalls calls, .added⟩)
        (if (t.knownCalls calls).length < calls.length then [.unknownStopsRemovedFromAddedTrip]
          else [])

/-- Taking a trip out of service, for both mutations that do so. -/
private theorem withdraw_cases {state : TripState} (hm : m.withdrawal? = some state) :
    (∃ e, t.withdraw m.trip state = (t, .error e)) ∨
      ∃ t' warnings, t.withdraw m.trip state = (t', .ok warnings) ∧ t.Succeeds m t' warnings := by
  cases hkey : t.resolve m.trip with
  | none => exact .inl ⟨_, by rw [withdraw, hkey]⟩
  | some key =>
    obtain ⟨live, hlive⟩ := exists_trip?_of_resolve hkey
    by_cases hold : live.state = state ∨ live.state = .deleted
    · refine .inr ⟨_, _, ?_, .alreadyWithdrawn hm hkey hlive hold⟩
      simp only [withdraw, hkey, hlive, if_pos hold]
    · refine .inr ⟨_, _, ?_, .withdrawn hm hkey hlive hold⟩
      simp only [withdraw, hkey, hlive, if_neg hold]

/-- Rerouting a trip either fails, and changes nothing, or is one of the effects. -/
private theorem reroute_cases (t : Timetable) (id : ScopedId) (calls : List Call) :
    (∃ e, t.reroute id calls = (t, .error e)) ∨
      ∃ t' warnings, t.reroute id calls = (t', .ok warnings) ∧
        t.Succeeds (.reroute id calls) t' warnings := by
  cases hkey : t.resolve id with
  | none => exact .inl ⟨_, by rw [reroute, hkey]⟩
  | some key =>
    cases hknown : calls.findIdx? fun c => t.stopCount ≤ c.stop with
    | some n => exact .inl ⟨.atCall key .unknownStop n, by simp only [reroute, hkey, hknown]⟩
    | none =>
      cases hvalid : validateCalls key calls with
      | error e => exact .inl ⟨e, by simp only [reroute, hkey, hknown, hvalid]⟩
      | ok =>
        obtain ⟨live, hlive⟩ := exists_trip?_of_resolve hkey
        refine .inr ⟨_, _, ?_, .rerouted hkey hlive ?_ ?_⟩
        · simp only [reroute, hkey, hknown, hvalid, hlive]
        · exact findIdx?_unknownStop_eq_none_iff.mp hknown
        · exact validateCalls_eq_ok_iff.mp hvalid

private theorem addTrip_cases (t : Timetable) (trip : Trip) (calls : List Call) :
    (∃ e, t.addTrip trip calls = (t, .error e)) ∨
      ∃ t' warnings, t.addTrip trip calls = (t', .ok warnings) ∧
        t.Succeeds (.addTrip trip calls) t' warnings := by
  by_cases hold : t.trips.contains trip.id = true
  · exact .inl ⟨_, by rw [addTrip, if_pos hold]⟩
  by_cases hnone : (!calls.isEmpty && (t.knownCalls calls).isEmpty) = true
  · exact .inl ⟨.forTrip trip.id .noValidStops, by simp only [addTrip, if_neg hold, if_pos hnone]⟩
  cases hvalid : validateCalls trip.id (t.knownCalls calls) with
  | error e => exact .inl ⟨e, by simp only [addTrip, if_neg hold, if_neg hnone, hvalid]⟩
  | ok =>
    have hfresh := contains_eq_false_iff.mp (Bool.eq_false_iff.mpr hold)
    refine .inr ⟨_, _, ?_, .added hfresh (validateCalls_eq_ok_iff.mp hvalid)⟩
    simp only [addTrip, if_neg hold, if_neg hnone, hvalid]

/-- **One mutation.** It fails and changes nothing, or makes one of the listed changes. -/
theorem apply_cases (t : Timetable) (m : Mutation) :
    (∃ e, t.apply m = (t, .error e)) ∨
      ∃ t' warnings, t.apply m = (t', .ok warnings) ∧ t.Succeeds m t' warnings := by
  cases m with
  | cancel id => exact withdraw_cases (m := .cancel id) rfl
  | delete id => exact withdraw_cases (m := .delete id) rfl
  | reroute id calls => exact reroute_cases t id calls
  | addTrip trip calls => exact addTrip_cases t trip calls

/-- A mutation that fails leaves the timetable as it was. -/
theorem apply_of_error {e : UpdateError} (h : (t.apply m).2 = .error e) :
    t.apply m = (t, .error e) := by
  rcases apply_cases t m with ⟨e', hm⟩ | ⟨t', warnings, hm, -⟩
  · rw [hm] at h
    rw [hm, Except.error.inj h]
  · rw [hm] at h
    cases h

/-- Cancelling and deleting are the same but for the state. -/
private theorem apply_eq_withdraw {state : TripState} (hm : m.withdrawal? = some state) :
    t.apply m = t.withdraw m.trip state := by
  cases m <;> cases hm <;> rfl

/-- The listed changes are made whenever what they ask for is there. -/
theorem apply_of_succeeds {warnings : List Warning} (h : t.Succeeds m t' warnings) :
    t.apply m = (t', .ok warnings) := by
  cases h with
  | withdrawn hm hkey hlive hfresh =>
    simp only [apply_eq_withdraw hm, withdraw, hkey, hlive, if_neg hfresh]
  | alreadyWithdrawn hm hkey hlive hold =>
    simp only [apply_eq_withdraw hm, withdraw, hkey, hlive, if_pos hold]
  | @rerouted id key calls live hkey hlive hknown hvalid =>
    have hnone := findIdx?_unknownStop_eq_none_iff.mpr hknown
    have hcheck : validateCalls key calls = .ok () := validateCalls_eq_ok_iff.mpr hvalid
    simp only [apply, reroute, hkey, hnone, hcheck, hlive]
  | @added trip calls hfresh hvalid =>
    have hnew := contains_eq_false_iff.mpr hfresh
    have hsome : (t.knownCalls calls).isEmpty = false := by
      have := hvalid.two_le
      cases hknown : t.knownCalls calls <;> simp_all
    have hcheck : validateCalls trip.id (t.knownCalls calls) = .ok () :=
      validateCalls_eq_ok_iff.mpr hvalid
    simp [apply, addTrip, hnew, hsome, hcheck]

/-- **Success.** A mutation succeeds exactly by making one of the listed changes. -/
theorem apply_eq_ok_iff {warnings : List Warning} :
    t.apply m = (t', .ok warnings) ↔ t.Succeeds m t' warnings := by
  refine ⟨fun h => ?_, apply_of_succeeds⟩
  rcases apply_cases t m with ⟨e, hm⟩ | ⟨t'', warnings', hm, hs⟩
  · rw [hm] at h
    cases h
  · rw [hm] at h
    obtain ⟨rfl, hw⟩ := Prod.mk.inj h
    obtain rfl := Except.ok.inj hw
    exact hs

/-- A trip that is added was not there. -/
theorem Succeeds.eq_putTrip {trip : Trip} {calls : List Call} {warnings : List Warning}
    (hs : t.Succeeds (.addTrip trip calls) t' warnings) :
    t.trip? trip.id = none ∧ t' = t.putTrip ⟨trip, t.knownCalls calls, .added⟩ := by
  cases hs with
  | withdrawn hm => cases hm
  | alreadyWithdrawn hm => cases hm
  | added hfresh => exact ⟨hfresh, rfl⟩

/-- A trip that is rerouted is there, and its new calls are valid and at known stops. -/
theorem Succeeds.of_reroute {calls : List Call} {warnings : List Warning}
    (hs : t.Succeeds (.reroute id calls) t' warnings) :
    ∃ key live, t.resolve id = some key ∧ t.trip? key = some live ∧
      (∀ c ∈ calls, c.stop < t.stopCount) ∧ ValidCalls calls ∧
      t' = t.modifyTrip key fun l =>
        { l with
          calls
          state := if live.stops = calls.map Call.stop then .updated else .modified } := by
  cases hs with
  | withdrawn hm => cases hm
  | alreadyWithdrawn hm => cases hm
  | rerouted hkey hlive hknown hvalid => exact ⟨_, _, hkey, hlive, hknown, hvalid, rfl⟩

theorem succeeds_of_ok {warnings : List Warning} (h : (t.apply m).2 = .ok warnings) :
    t.Succeeds m (t.apply m).1 warnings :=
  apply_eq_ok_iff.mp (Prod.ext rfl h)

end Timetable

end Interchange
