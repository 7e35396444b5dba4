import Interchange.Proofs.Timetable.Run
import Interchange.Proofs.Timetable.Seed

/-!
# Rerouting and the schedule

The state of a rerouted trip is meant relative to the schedule: an updated trip has the
scheduled stops, a modified one has other stops. `Timetable.FollowsSchedule` says so. But a
reroute compares the new stops with those that the trip has at that moment, which need not be
the scheduled ones any more. `Timetable.followsSchedule_applyAll_iff` says exactly when the two
comparisons agree, in terms of the stops that each trip had just before it was last rerouted
(`Timetable.stopsBefore?`), and `Timetable.not_followsSchedule` is a run in which they do not.
-/

namespace Interchange

namespace Timetable

variable {t t₀ : Timetable} {key : ScopedId} {m : Mutation}

/-! ### What the states promise -/

/-- The states in `t` of updated and modified trips are right, if `t₀` is the schedule. -/
structure FollowsSchedule (t₀ t : Timetable) : Prop where
  /-- An updated trip is scheduled, at the stops where it calls now -/
  updated : ∀ key live, t.trip? key = some live → live.state = .updated →
    (t₀.trip? key).map LiveTrip.stops = some live.stops
  /-- A modified trip that is scheduled calls at other stops now -/
  modified : ∀ key live, t.trip? key = some live → live.state = .modified →
    (t₀.trip? key).map LiveTrip.stops ≠ some live.stops

/-! ### The last reroute -/

/-- The trip that a mutation reroutes. -/
def rerouted? (t : Timetable) (m : Mutation) : Option ScopedId :=
  match m, (t.apply m).2 with
  | .reroute id _, .ok _ => t.resolve id
  | _, _ => none

/-- The stops that a trip has when a mutation reroutes it. -/
def stopsAt? (t : Timetable) (key : ScopedId) (m : Mutation) : Option (List StopIndex) :=
  if t.rerouted? m = some key then (t.trip? key).map LiveTrip.stops else none

/-- The stops of a trip just before a run of mutations last reroutes it. -/
def stopsBefore? (t : Timetable) (key : ScopedId) : List Mutation → Option (List StopIndex)
  | [] => none
  | m :: ms => ((t.apply m).1.stopsBefore? key ms).or (t.stopsAt? key m)

private theorem rerouted?_of_error {e : UpdateError} (h : (t.apply m).2 = .error e) :
    t.rerouted? m = none := by
  cases m <;> simp only [rerouted?, h]

theorem rerouted?_of_withdrawal {state : TripState} (h : m.withdrawal? = some state) :
    t.rerouted? m = none := by
  cases m <;> first | rfl | cases h

/-- A rerouting that succeeds reroutes the trip that its id means. -/
theorem rerouted?_of_ok {id : ScopedId} {calls : List Call} {warnings : List Warning}
    (h : (t.apply (.reroute id calls)).2 = .ok warnings) :
    t.rerouted? (.reroute id calls) = t.resolve id := by
  simp only [rerouted?, h]

/-- A mutation that does not reroute the trip leaves no record of its stops. -/
private theorem stopsAt?_of_not_rerouted (h : t.rerouted? m ≠ some key) : t.stopsAt? key m = none :=
  if_neg h

/-- The last mutation of a run decides, if it reroutes the trip, and otherwise the run before it. -/
theorem stopsBefore?_concat (t : Timetable) (key : ScopedId) (ms : List Mutation) (m : Mutation) :
    t.stopsBefore? key (ms ++ [m]) =
      ((t.applyAll ms).1.stopsAt? key m).or (t.stopsBefore? key ms) := by
  induction ms generalizing t with
  | nil => simp [stopsBefore?, applyAll]
  | cons m' ms ih =>
    rw [List.cons_append, stopsBefore?, ih, stopsBefore?, applyAll_cons, Option.or_assoc]

/-! ### What decides the state -/

/-- The state of a trip that is updated or modified after a run tells whether its stops are
those that it had just before it was last rerouted. -/
def Remembers (t₀ : Timetable) (ms : List Mutation) : Prop :=
  ∀ key live, (t₀.applyAll ms).1.trip? key = some live →
    live.state = .updated ∨ live.state = .modified →
      ∃ before, t₀.stopsBefore? key ms = some before ∧
        (live.state = .updated ↔ before = live.stops)

/-- A mutation that reroutes no trip leaves the memory of all others alone. -/
private theorem Remembers.concat_of_not_rerouted {ms : List Mutation} (h : Remembers t₀ ms)
    (hm : (t₀.applyAll ms).1.rerouted? m = none)
    (htrip : ∀ key live, ((t₀.applyAll ms).1.apply m).1.trip? key = some live →
      live.state = .updated ∨ live.state = .modified →
        (t₀.applyAll ms).1.trip? key = some live) :
    Remembers t₀ (ms ++ [m]) := by
  intro key live hlive hstate
  rw [applyAll_concat] at hlive
  obtain ⟨before, hbefore, hiff⟩ := h key live (htrip key live hlive hstate) hstate
  refine ⟨before, ?_, hiff⟩
  rw [stopsBefore?_concat, stopsAt?_of_not_rerouted (by simp [hm]), Option.none_or, hbefore]

/-- How a reroute chooses the state. -/
private theorem ite_updated_iff {p : Prop} [Decidable p] :
    (if p then TripState.updated else .modified) = .updated ↔ p := by
  split_ifs with hp
  · exact ⟨fun _ => hp, fun _ => rfl⟩
  · exact ⟨fun h => (by cases h), fun h => absurd h hp⟩

/-- **The state remembers the last reroute.** This holds from any timetable without rerouted
trips on, through any run of mutations. -/
theorem remembers (hseed : ∀ key live, t₀.trip? key = some live → live.state = .scheduled)
    (ms : List Mutation) : Remembers t₀ ms := by
  induction ms using List.reverseRecOn with
  | nil =>
    intro key live hlive hstate
    rw [hseed key live hlive] at hstate
    rcases hstate with h | h <;> cases h
  | append_singleton ms m ih =>
    rcases apply_cases (t₀.applyAll ms).1 m with ⟨e, hm⟩ | ⟨t', warnings, hm, hs⟩
    · -- a mutation that fails is no reroute and leaves all trips as they are
      refine ih.concat_of_not_rerouted (rerouted?_of_error (by rw [hm])) ?_
      intro key live hlive hstate
      rwa [hm] at hlive
    have htrip : ((t₀.applyAll ms).1.apply m).1 = t' := by rw [hm]
    cases hs with
    | @withdrawn _ state key live hkind hfound hlive hfresh =>
      refine ih.concat_of_not_rerouted (rerouted?_of_withdrawal hkind) ?_
      intro k live' hlive' hstate
      rw [htrip] at hlive'
      rcases trip?_modifyTrip_eq_some hlive' with ⟨-, old, -, rfl⟩ | hold
      · -- the trip has just been withdrawn, so it is neither updated nor modified
        rcases Mutation.eq_of_withdrawal? hkind with rfl | rfl <;>
          rcases hstate with h | h <;> cases h
      · exact hold
    | alreadyWithdrawn hkind =>
      refine ih.concat_of_not_rerouted (rerouted?_of_withdrawal hkind) ?_
      intro k live' hlive' hstate
      rwa [htrip] at hlive'
    | @rerouted id key calls live hfound hlive hknown hvalid =>
      have hkey : (t₀.applyAll ms).1.rerouted? (.reroute id calls) = some key := by
        rw [rerouted?_of_ok (by rw [hm]), hfound]
      intro k live' hlive' hstate
      rw [applyAll_concat, htrip, trip?_modifyTrip] at hlive'
      by_cases hk : k = key
      · -- the state has just been chosen, by the stops that the trip had until now
        subst hk
        rw [if_pos rfl, hlive] at hlive'
        obtain rfl := Option.some.inj hlive'
        refine ⟨live.stops, ?_, ite_updated_iff⟩
        rw [stopsBefore?_concat, stopsAt?, if_pos hkey, hlive]
        rfl
      · -- the last reroute of another trip is still the last one
        rw [if_neg hk] at hlive'
        obtain ⟨before, hbefore, hiff⟩ := ih k live' hlive' hstate
        refine ⟨before, ?_, hiff⟩
        rw [stopsBefore?_concat, stopsAt?_of_not_rerouted, Option.none_or, hbefore]
        rw [hkey]
        exact fun h => hk (Option.some.inj h).symm
    | @added trip calls hfresh hvalid =>
      refine ih.concat_of_not_rerouted rfl ?_
      intro k live' hlive' hstate
      rw [htrip] at hlive'
      rcases trip?_putTrip_eq_some hlive' with ⟨-, rfl⟩ | hold
      · rcases hstate with h | h <;> cases h
      · exact hold

/-! ### When the promise is kept -/

/-- **States against the schedule.** After a run of mutations the states of the trips are
right exactly if every trip that is updated or modified has the stops that it had before it was
last rerouted just when it has its scheduled stops. -/
theorem followsSchedule_applyAll_iff (stopCount : Nat) (trips : List ScheduledTrip)
    (ms : List Mutation) :
    FollowsSchedule (seed stopCount trips) ((seed stopCount trips).applyAll ms).1 ↔
      ∀ key live before, ((seed stopCount trips).applyAll ms).1.trip? key = some live →
        live.state = .updated ∨ live.state = .modified →
        (seed stopCount trips).stopsBefore? key ms = some before →
          (before = live.stops ↔
            ((seed stopCount trips).trip? key).map LiveTrip.stops = some live.stops) := by
  have hremember : Remembers (seed stopCount trips) ms :=
    remembers (fun key live => state_of_trip?_seed) ms
  constructor
  · intro h key live before hlive hstate hbefore
    -- the stops that the state remembers are those that it is compared with
    obtain ⟨before', hbefore', hiff⟩ := hremember key live hlive hstate
    obtain rfl := Option.some.inj (hbefore.symm.trans hbefore')
    rw [← hiff]
    rcases hstate with hstate | hstate
    · exact ⟨fun _ => h.updated key live hlive hstate, fun _ => hstate⟩
    · refine ⟨fun hupdated => ?_, fun hstops => ?_⟩
      · rw [hstate] at hupdated
        cases hupdated
      · exact absurd hstops (h.modified key live hlive hstate)
  · intro h
    constructor
    · intro key live hlive hstate
      obtain ⟨before, hbefore, hiff⟩ := hremember key live hlive (.inl hstate)
      exact (h key live before hlive (.inl hstate) hbefore).mp (hiff.mp hstate)
    · intro key live hlive hstate hstops
      obtain ⟨before, hbefore, hiff⟩ := hremember key live hlive (.inr hstate)
      have hsame := (h key live before hlive (.inr hstate) hbefore).mpr hstops
      have hupdated := hiff.mpr hsame
      rw [hstate] at hupdated
      cases hupdated

/-! ### When it is broken -/

/-- A trip of the schedule. -/
def tram : Trip := ⟨⟨"F", "T", by decide⟩, ⟨"F", "R", by decide⟩, none, none⟩

/-- Its scheduled calls. -/
def direct : List Call := [⟨0, 1, .hms 8 0 0, .hms 8 0 0⟩, ⟨1, 2, .hms 8 5 0, .hms 8 5 0⟩]

/-- Calls on a detour. -/
def diverted : List Call := [⟨0, 1, .hms 8 0 0, .hms 8 0 0⟩, ⟨2, 2, .hms 8 7 0, .hms 8 7 0⟩]

/-- Sent on the same detour twice, a trip counts as updated, and sent back from the detour to
its scheduled stops, it counts as modified. -/
theorem not_followsSchedule :
    (¬ FollowsSchedule (seed 3 [⟨tram, direct⟩])
      ((seed 3 [⟨tram, direct⟩]).applyAll
        [.reroute tram.id diverted, .reroute tram.id diverted]).1) ∧
    ¬ FollowsSchedule (seed 3 [⟨tram, direct⟩])
      ((seed 3 [⟨tram, direct⟩]).applyAll
        [.reroute tram.id diverted, .reroute tram.id direct]).1 := by
  constructor
  · intro h
    have hstops := h.updated tram.id ⟨tram, diverted, .updated⟩ (by decide) rfl
    revert hstops
    decide
  · intro h
    have hstops := h.modified tram.id ⟨tram, direct, .modified⟩ (by decide) rfl
    revert hstops
    decide

end Timetable

end Interchange
