import Interchange.Update.Timetable
import Mathlib.Tactic.Common

/-!
# Valid calls

`ValidCalls` says what `validateCalls` checks, without its walk along the list: a trip has at
least two calls, no call is before the start of the service day or left before it is reached,
and *any* two calls of the trip, not just neighbours, follow each other in time and in
sequence. The walk compares each call with the one before it only. That this is enough rests
on the times within a call being in order, which makes `Call.Before` transitive along the trip
(`Call.Before.trans`).
-/

namespace Interchange

/-! ### What valid calls are -/

/-- The times of a call by itself are in order. -/
def Call.Timed (c : Call) : Prop :=
  0 ≤ c.arrival.seconds ∧ c.arrival ≤ c.departure

/-- A call is left before the other is reached, and comes before it in sequence. -/
def Call.Before (c d : Call) : Prop :=
  c.departure ≤ d.arrival ∧ c.sequence < d.sequence

/-- The calls that a trip may have. -/
structure ValidCalls (calls : List Call) : Prop where
  two_le : 2 ≤ calls.length
  timed : ∀ c ∈ calls, c.Timed
  before : calls.Pairwise Call.Before

/-- Calls follow each other across a call whose times are in order. -/
theorem Call.Before.trans {b c d : Call} (hbc : b.Before c) (hc : c.Timed) (hcd : c.Before d) :
    b.Before d := by
  simp only [Call.Before, Call.Timed, ServiceTime.le_iff] at *
  omega

/-! ### The faults of single calls -/

/-- The dwell time stops at the ends of the range, but never changes its sign. -/
theorem Call.dwell_neg_iff {c : Call} : c.dwell < 0 ↔ c.departure < c.arrival := by
  simp only [Call.dwell, ServiceTime.since, clampShort, minShort, maxShort, ServiceTime.lt_iff]
  omega

/-- A call by itself is faultless if it is on the service day and not left before it is reached. -/
theorem Call.fault?_eq_none_iff {c : Call} : c.fault? = none ↔ c.Timed := by
  simp only [Call.fault?, Call.Timed, Call.dwell_neg_iff, ServiceTime.lt_iff,
    ServiceTime.le_iff]
  split_ifs <;> simp <;> omega

/-- There is no fault between two calls if they follow each other in time and in sequence. -/
theorem Call.hopFault?_eq_none_iff {c d : Call} : c.hopFault? d = none ↔ c.Before d := by
  simp only [Call.hopFault?, Call.Before, ServiceTime.lt_iff, ServiceTime.le_iff]
  split_ifs <;> simp <;> omega

/-! ### The walk along a trip -/

/-- One step along the calls: the first is checked by itself and against the one before it. -/
theorem faultAfter?_cons_eq_none_iff {previous c : Call} {n : Nat} {cs : List Call} :
    faultAfter? previous n (c :: cs) = none ↔
      c.Timed ∧ previous.Before c ∧ faultAfter? c (n + 1) cs = none := by
  rw [faultAfter?, ← Call.fault?_eq_none_iff, ← Call.hopFault?_eq_none_iff]
  cases c.fault? <;> cases previous.hopFault? c <;> simp

/-- A walk without a fault has compared all pairs of calls: what it finds out about
neighbours carries over the calls between. -/
theorem faultAfter?_eq_none_iff {previous : Call} {n : Nat} {cs : List Call} :
    faultAfter? previous n cs = none ↔
      (∀ c ∈ cs, c.Timed) ∧ (previous :: cs).Pairwise Call.Before := by
  induction cs generalizing previous n with
  | nil => simp [faultAfter?]
  | cons c cs ih =>
    rw [faultAfter?_cons_eq_none_iff, ih]
    constructor
    · rintro ⟨hc, hpc, htimed, hbefore⟩
      refine ⟨List.forall_mem_cons.mpr ⟨hc, htimed⟩, List.pairwise_cons.mpr ⟨?_, hbefore⟩⟩
      have hcs := (List.pairwise_cons.mp hbefore).1
      exact List.forall_mem_cons.mpr ⟨hpc, fun d hd => hpc.trans hc (hcs d hd)⟩
    · rintro ⟨htimed, hbefore⟩
      obtain ⟨hc, htimed⟩ := List.forall_mem_cons.mp htimed
      obtain ⟨hp, hbefore⟩ := List.pairwise_cons.mp hbefore
      exact ⟨hc, hp c List.mem_cons_self, htimed, hbefore⟩

/-- Only neighbours are compared, and yet any two faultless calls follow each other. -/
theorem callFault?_eq_none_iff {calls : List Call} :
    callFault? calls = none ↔ (∀ c ∈ calls, c.Timed) ∧ calls.Pairwise Call.Before := by
  cases calls with
  | nil => simp [callFault?]
  | cons c cs =>
    rw [callFault?, List.forall_mem_cons, ← Call.fault?_eq_none_iff]
    cases hfault : c.fault? with
    | some reason => simp
    | none => simp [faultAfter?_eq_none_iff]

/-- **Validation.** The check passes exactly the valid lists of calls. -/
theorem validateCalls_eq_ok_iff {trip : ScopedId} {calls : List Call} :
    validateCalls trip calls = .ok () ↔ ValidCalls calls := by
  have hvalid : ValidCalls calls ↔ 2 ≤ calls.length ∧ callFault? calls = none := by
    rw [callFault?_eq_none_iff]
    exact ⟨fun h => ⟨h.two_le, h.timed, h.before⟩, fun h => ⟨h.1, h.2.1, h.2.2⟩⟩
  rw [hvalid]
  match calls with
  | [] => simp [validateCalls]
  | [c] => simp [validateCalls]
  | c :: d :: cs =>
    cases hfault : callFault? (c :: d :: cs) <;> simp [validateCalls, hfault]

end Interchange
