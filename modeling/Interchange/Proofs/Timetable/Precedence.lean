import Interchange.Proofs.Timetable.Faults
import Interchange.Proofs.Timetable.Mutation

/-!
# Which failure a reroute reports

New calls may be wrong in several ways at once, and a reroute reports one of them. It looks for the
trip first, then for stops that there are not, then whether there are enough calls, and only then at
the calls one by one (`Timetable.Refuses`). Of these the first fault is reported.
`Timetable.reroute_decides` says that this is all: the trip gets the calls exactly if nothing is
wrong with them.
-/

namespace Interchange

namespace Timetable

/-- **What a reroute asks for.** -/
structure Reroutable (t : Timetable) (id : ScopedId) (calls : List Call) : Prop where
  found : (t.resolve id).isSome = true
  known : ∀ c ∈ calls, c.stop < t.stopCount
  two_le : 2 ≤ calls.length
  nonneg : ∀ c ∈ calls, 0 ≤ c.arrival.seconds ∧ 0 ≤ c.departure.seconds
  left : ∀ c ∈ calls, c.arrival.seconds ≤ c.departure.seconds
  follow : calls.IsChain fun previous c =>
    previous.sequence < c.sequence ∧ previous.departure.seconds ≤ c.arrival.seconds

/-- **Refusals.** The error of a reroute. What is looked at later is reported only if nothing is
wrong with what is looked at before. -/
inductive Refuses (t : Timetable) (id : ScopedId) (calls : List Call) : UpdateError → Prop
  /-- The id means no trip -/
  | trip (missing : t.resolve id = none) : Refuses t id calls (.forTrip id .tripNotFound)
  /-- The first call at an unknown stop -/
  | stop {key : ScopedId} {n : Nat} {c : Call} (found : t.resolve id = some key)
      (unknown : FirstAt (fun c => t.stopCount ≤ c.stop) calls n c) :
      Refuses t id calls (.atCall key .unknownStop n)
  | noCalls {key : ScopedId} (found : t.resolve id = some key) (none : calls = []) :
      Refuses t id calls (.forTrip key .noUpdates)
  | oneCall {key : ScopedId} (found : t.resolve id = some key)
      (known : ∀ c ∈ calls, c.stop < t.stopCount) (one : calls.length = 1) :
      Refuses t id calls (.forTrip key .tooFewStops)
  /-- The first call that fails a check, with the first check that it fails -/
  | call {key : ScopedId} {n : Nat} {reason : FailureReason} (found : t.resolve id = some key)
      (known : ∀ c ∈ calls, c.stop < t.stopCount) (two_le : 2 ≤ calls.length)
      (fault : FirstFault calls n reason) : Refuses t id calls (.atCall key reason n)

variable {t : Timetable} {id : ScopedId} {calls : List Call}

/-- A trip can be rerouted if it is known and the calls are at known stops and valid. -/
theorem reroutable_iff :
    t.Reroutable id calls ↔
      (t.resolve id).isSome = true ∧ (∀ c ∈ calls, c.stop < t.stopCount) ∧ ValidCalls calls := by
  have hfollow : (fun previous c : Call => previous.sequence < c.sequence ∧
      previous.departure.seconds ≤ c.arrival.seconds) = Call.Before := by
    funext previous c
    exact propext and_comm
  constructor
  · rintro ⟨hfound, hknown, htwo, hnonneg, hleft, hchain⟩
    have htimed : ∀ c ∈ calls, c.Timed := fun c hc => ⟨(hnonneg c hc).1, hleft c hc⟩
    rw [hfollow, ← pairwise_before_iff_isChain htimed] at hchain
    exact ⟨hfound, hknown, htwo, htimed, hchain⟩
  · rintro ⟨hfound, hknown, htwo, htimed, hbefore⟩
    have hchain := (pairwise_before_iff_isChain htimed).mp hbefore
    rw [← hfollow] at hchain
    refine ⟨hfound, hknown, htwo, fun c hc => ?_, fun c hc => (htimed c hc).2, hchain⟩
    obtain ⟨harrival, hleft⟩ := htimed c hc
    exact ⟨harrival, Int.le_trans harrival hleft⟩

theorem reroute_eq_ok_iff :
    (∃ warnings, (t.apply (.reroute id calls)).2 = .ok warnings) ↔ t.Reroutable id calls := by
  rw [reroutable_iff]
  constructor
  · rintro ⟨warnings, h⟩
    obtain ⟨key, live, hkey, -, hknown, hvalid, -⟩ := (succeeds_of_ok h).of_reroute
    exact ⟨Option.isSome_of_eq_some hkey, hknown, hvalid⟩
  · rintro ⟨hfound, hknown, hvalid⟩
    obtain ⟨key, hkey⟩ := Option.isSome_iff_exists.mp hfound
    obtain ⟨live, hlive⟩ := exists_trip?_of_resolve hkey
    exact ⟨[], congrArg Prod.snd (apply_of_succeeds (.rerouted hkey hlive hknown hvalid))⟩

/-- Behind the stops, the check of the calls decides. -/
private theorem reroute_eq_error_of_validateCalls {key : ScopedId} {e : UpdateError}
    (hkey : t.resolve id = some key) (hknown : ∀ c ∈ calls, c.stop < t.stopCount)
    (h : validateCalls key calls = .error e) : (t.apply (.reroute id calls)).2 = .error e := by
  have hstops := findIdx?_unknownStop_eq_none_iff.mpr hknown
  simp only [apply, reroute, hkey, hstops, h]

/-- Which error a rerouting fails with is settled by the order of the checks. -/
theorem reroute_eq_error_iff {e : UpdateError} :
    (t.apply (.reroute id calls)).2 = .error e ↔ t.Refuses id calls e := by
  have hstop {n : Nat} : (calls.findIdx? fun c => t.stopCount ≤ c.stop) = some n ↔
      ∃ c, FirstAt (fun c => t.stopCount ≤ c.stop) calls n c := by
    rw [findIdx?_eq_some_iff_firstAt]
    simp only [decide_eq_true_eq]
  constructor
  · -- check by check; each failure has its own constructor
    intro h
    rw [apply, reroute] at h
    cases hkey : t.resolve id with
    | none =>
      rw [hkey] at h
      obtain rfl := Except.error.inj h
      exact .trip hkey
    | some key =>
      simp only [hkey] at h
      cases hfound : calls.findIdx? fun c => t.stopCount ≤ c.stop with
      | some n =>
        simp only [hfound] at h
        obtain rfl := Except.error.inj h
        obtain ⟨c, hc⟩ := hstop.mp hfound
        exact .stop hkey hc
      | none =>
        have hknown := findIdx?_unknownStop_eq_none_iff.mp hfound
        simp only [hfound] at h
        cases hvalid : validateCalls key calls with
        | error e' =>
          simp only [hvalid] at h
          obtain rfl := Except.error.inj h
          rcases validateCalls_eq_error_iff.mp hvalid with
            ⟨hnil, rfl⟩ | ⟨hone, rfl⟩ | ⟨htwo, n, reason, hfault, rfl⟩
          · exact .noCalls hkey hnil
          · exact .oneCall hkey hknown hone
          · exact .call hkey hknown htwo hfault
        | ok =>
          -- what an id means is there, so nothing is left that could fail
          obtain ⟨live, hlive⟩ := exists_trip?_of_resolve hkey
          simp only [hvalid, hlive] at h
          cases h
  · intro h
    cases h with
    | trip hkey => simp only [apply, reroute, hkey]
    | stop hkey hc => simp only [apply, reroute, hkey, hstop.mpr ⟨_, hc⟩]
    | noCalls hkey hnil =>
      have hknown : ∀ c ∈ calls, c.stop < t.stopCount := fun c hc => by simp [hnil] at hc
      exact reroute_eq_error_of_validateCalls hkey hknown
        (validateCalls_eq_error_iff.mpr (.inl ⟨hnil, rfl⟩))
    | oneCall hkey hknown hone =>
      exact reroute_eq_error_of_validateCalls hkey hknown
        (validateCalls_eq_error_iff.mpr (.inr (.inl ⟨hone, rfl⟩)))
    | call hkey hknown htwo hfault =>
      exact reroute_eq_error_of_validateCalls hkey hknown
        (validateCalls_eq_error_iff.mpr (.inr (.inr ⟨htwo, _, _, hfault, rfl⟩)))

/-- **How a reroute decides.** It succeeds exactly if what it asks for is there, and its error is
that of the first thing that is not. The dwell time that it computes within the range of times has
the sign of the exact one. -/
theorem reroute_decides (t : Timetable) (id : ScopedId) (calls : List Call) :
    ((∃ warnings, (t.apply (.reroute id calls)).2 = .ok warnings) ↔ t.Reroutable id calls) ∧
      (∀ e, (t.apply (.reroute id calls)).2 = .error e ↔ t.Refuses id calls e) ∧
      ∀ c : Call, c.dwell < 0 ↔ c.departure.seconds - c.arrival.seconds < 0 := by
  refine ⟨reroute_eq_ok_iff, fun _ => reroute_eq_error_iff, fun c => ?_⟩
  rw [Call.dwell_neg_iff, ServiceTime.lt_iff]
  omega

end Timetable

end Interchange
