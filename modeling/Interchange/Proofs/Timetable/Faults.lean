import Interchange.Proofs.Checks
import Interchange.Proofs.Timetable.Calls

/-!
# The first fault

A call may fail several checks, some of them by itself and some after the call before it
(`Call.Fails`). The walk along the calls of a trip reports the first call that fails any, with the
first check that it fails (`FirstFault`, `callFault?_eq_some_iff`).

The checks compare times as they are. The dwell time, which is cut off at the ends of the range, is
negative for the same calls (`Call.dwell_neg_iff`).
-/

namespace Interchange

/-! ### The checks of a call -/

namespace Call

/-- **Checks.** The call fails the check that a reason stands for. Two of the checks are about the
call before it, and are passed if there is none. -/
def Fails (previous? : Option Call) (c : Call) : FailureReason → Prop
  | .invalidArrivalTime => c.arrival.seconds < 0
  | .invalidDepartureTime => c.departure.seconds < 0
  | .negativeDwellTime => c.departure.seconds < c.arrival.seconds
  | .invalidStopSequence => ∃ p ∈ previous?, c.sequence ≤ p.sequence
  | .negativeHopTime => ∃ p ∈ previous?, c.arrival.seconds < p.departure.seconds
  | _ => False

/-- The reasons that the checks stand for, in the order of the checks. -/
def checks : List FailureReason :=
  [.invalidArrivalTime, .invalidDepartureTime, .negativeDwellTime, .invalidStopSequence,
    .negativeHopTime]

/-- What is wrong with a call, by itself or after the one before it. -/
def reason? (previous? : Option Call) (c : Call) : Option FailureReason :=
  c.fault? <|> previous?.bind fun p => p.hopFault? c

variable {previous? : Option Call} {c : Call} {reason : FailureReason}

private theorem mem_checks_of_fails (h : c.Fails previous? reason) : reason ∈ checks := by
  cases reason <;> simp_all [Fails, checks]

open Classical in
/-- The reason given for a call is the first check of the list that it fails. -/
private theorem reason?_eq_find? (previous? : Option Call) (c : Call) :
    c.reason? previous? = checks.find? fun reason => c.Fails previous? reason := by
  have hcons : ∀ r rs, List.find? (fun r => c.Fails previous? r) (r :: rs) =
      if c.Fails previous? r then some r else rs.find? fun r => c.Fails previous? r := by
    intro r rs
    rw [List.find?_cons]
    split_ifs with h <;> simp [h]
  rw [checks]
  simp only [hcons, List.find?_nil]
  simp only [reason?, fault?, dwell_neg_iff, ServiceTime.lt_iff, Fails]
  cases previous? with
  | none =>
    simp only [Option.bind_none, Option.orElse_eq_orElse, Option.orElse_eq_or, Option.or_none,
      Option.mem_def, reduceCtorEq, false_and, exists_false, if_false]
  | some p =>
    simp only [hopFault?, ServiceTime.lt_iff, Option.mem_some_iff, exists_eq_left',
      Option.bind_some]
    split_ifs <;> rfl

/-- What is reported of a call is the first check that it fails. -/
theorem reason?_eq_some_iff :
    c.reason? previous? = some reason ↔ ∃ k, FirstAt (c.Fails previous?) checks k reason := by
  classical
  rw [reason?_eq_find?, find?_eq_some_iff_firstAt]
  simp only [decide_eq_true_eq]

private theorem isSome_reason?_iff :
    (c.reason? previous?).isSome = true ↔ ∃ r, c.Fails previous? r := by
  classical
  rw [reason?_eq_find?, List.find?_isSome]
  constructor
  · rintro ⟨r, -, hr⟩
    exact ⟨r, of_decide_eq_true hr⟩
  · rintro ⟨r, hr⟩
    exact ⟨r, mem_checks_of_fails hr, decide_eq_true hr⟩

end Call

/-! ### The first fault -/

/-- A call, with the one before it, fails a check. -/
def Faulty (x : Option Call × Call) : Prop := ∃ reason, x.2.Fails x.1 reason

/-- The calls, each with the one before it. -/
def withPrevious (calls : List Call) : List (Option Call × Call) :=
  (none :: calls.map some).zip calls

/-- What is checked at a position is the call there and the last of those before it. -/
theorem getElem?_withPrevious {calls : List Call} {n : Nat} {previous? : Option Call} {c : Call} :
    (withPrevious calls)[n]? = some (previous?, c) ↔
      calls[n]? = some c ∧ previous? = (calls.take n).getLast? := by
  rw [withPrevious, List.getElem?_zip_eq_some, and_comm]
  refine and_congr_right fun hc => ?_
  cases n with
  | zero => simp [eq_comm]
  | succ n =>
    have hlt := (List.getElem?_eq_some_iff.mp hc).1
    have hprevious : calls[n]? = some calls[n] := List.getElem?_eq_getElem (Nat.lt_of_succ_lt hlt)
    simp [List.getLast?_take, hprevious, eq_comm]

/-- **The first fault.** No call before position `n` fails a check, and the one at `n` fails that of
`reason` and none before it. -/
def FirstFault (calls : List Call) (n : Nat) (reason : FailureReason) : Prop :=
  ∃ previous? c, FirstAt Faulty (withPrevious calls) n (previous?, c) ∧
    ∃ k, FirstAt (c.Fails previous?) Call.checks k reason

section Walk

variable {calls : List Call} {n : Nat} {reason : FailureReason}

/-- Going along the calls is a search through the calls paired with the ones before them. -/
private theorem faultAfter?_eq_findSome? (previous : Call) (n : Nat) (cs : List Call) :
    faultAfter? previous n cs =
      (((some previous :: cs.map some).zip cs).zipIdx n).findSome? fun x =>
        (x.1.2.reason? x.1.1).map (x.2, ·) := by
  induction cs generalizing previous n with
  | nil => rfl
  | cons c cs ih =>
    rw [List.map_cons, List.zip_cons_cons, List.zipIdx_cons, List.findSome?_cons, ← ih,
      faultAfter?, ← Option.bind_some previous fun p => p.hopFault? c, ← Call.reason?]
    cases Call.reason? (some previous) c <;> rfl

/-- The walk along the calls stops at the first with something wrong. -/
private theorem callFault?_eq_findSome? (calls : List Call) :
    callFault? calls =
      (withPrevious calls).zipIdx.findSome? fun x => (x.1.2.reason? x.1.1).map (x.2, ·) := by
  cases calls with
  | nil => rfl
  | cons c cs =>
    rw [withPrevious, List.map_cons, List.zip_cons_cons, List.zipIdx_cons, List.findSome?_cons,
      ← faultAfter?_eq_findSome?]
    cases hfault : c.fault? <;> simp [callFault?, Call.reason?, hfault]

/-- The fault that is reported is the first one, at the first call that has any. -/
theorem callFault?_eq_some_iff :
    callFault? calls = some (n, reason) ↔ FirstFault calls n reason := by
  have hsome : (fun x : (Option Call × Call) × Nat =>
      ((x.1.2.reason? x.1.1).map (x.2, ·)).isSome = true) =
      fun x => Faulty x.1 := by
    funext x
    rw [Option.isSome_map, Call.isSome_reason?_iff, Faulty]
  rw [callFault?_eq_findSome?, findSome?_eq_some_iff_firstAt, hsome]
  simp only [Option.map_eq_some_iff, Prod.mk.injEq, Prod.exists]
  constructor
  · rintro ⟨i, previous?, c, k, hfirst, r, hr, hk, rfl⟩
    obtain ⟨rfl, hfirst⟩ := firstAt_zipIdx_iff.mp hfirst
    exact ⟨previous?, c, hk ▸ hfirst, Call.reason?_eq_some_iff.mp hr⟩
  · rintro ⟨previous?, c, hfirst, hreason⟩
    exact ⟨n, previous?, c, n, firstAt_zipIdx_iff.mpr ⟨rfl, hfirst⟩, reason,
      Call.reason?_eq_some_iff.mpr hreason, rfl, rfl⟩

/-- **Validation** fails for the number of calls, and else for the first fault. -/
theorem validateCalls_eq_error_iff {trip : ScopedId} {e : UpdateError} :
    validateCalls trip calls = .error e ↔
      (calls = [] ∧ e = .forTrip trip .noUpdates) ∨
      (calls.length = 1 ∧ e = .forTrip trip .tooFewStops) ∨
      2 ≤ calls.length ∧ ∃ n reason, FirstFault calls n reason ∧ e = .atCall trip reason n := by
  simp only [← callFault?_eq_some_iff]
  match calls with
  | [] => simp [validateCalls, eq_comm]
  | [c] => simp [validateCalls, eq_comm]
  | c :: d :: cs =>
    cases hfault : callFault? (c :: d :: cs) with
    | none => simp [validateCalls, hfault]
    | some fault => simp [validateCalls, hfault, Prod.ext_iff, eq_comm]

/-- The walk compares neighbours only. -/
private theorem faultAfter?_eq_none_iff_isChain {previous : Call} :
    faultAfter? previous n calls = none ↔
      (∀ c ∈ calls, c.Timed) ∧ (previous :: calls).IsChain Call.Before := by
  induction calls generalizing previous n with
  | nil => simp [faultAfter?]
  | cons c cs ih =>
    rw [faultAfter?_cons_eq_none_iff, ih, List.forall_mem_cons, List.isChain_cons_cons]
    tauto

/-- Calls that follow each other one by one follow each other all, if each of them is timed. -/
theorem pairwise_before_iff_isChain (htimed : ∀ c ∈ calls, c.Timed) :
    calls.Pairwise Call.Before ↔ calls.IsChain Call.Before := by
  cases calls with
  | nil => simp
  | cons c cs =>
    have hcs := (List.forall_mem_cons.mp htimed).2
    have hpairs : faultAfter? c 1 cs = none ↔ _ := faultAfter?_eq_none_iff
    have hchain : faultAfter? c 1 cs = none ↔ _ := faultAfter?_eq_none_iff_isChain
    exact and_congr_right_iff.mp (hpairs.symm.trans hchain) hcs

end Walk

end Interchange
