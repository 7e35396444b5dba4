import Interchange.Proofs.Timetable.Precedence

/-!
# Positions of failures

A mutation with calls that fails may name the position of the call at fault. A reroute checks the
calls as they were sent, and its position points at a call that has the fault
(`Timetable.faultAt_of_reroute`). Adding a trip leaves out the calls at unknown stops first and
checks the rest, and its position counts within the rest: it is the number of calls at known stops
that come before the call at fault (`Timetable.exists_faultAt_of_addTrip`). That is the position
of the call at fault only if nothing was left out before it (`Timetable.position_of_failure`), and
otherwise the position may be that of a call without a fault (`Timetable.not_pointsAtFault`).
-/

namespace Interchange

/-- The calls that come with a mutation. -/
def Mutation.calls : Mutation → List Call
  | .cancel _ | .delete _ => []
  | .reroute _ calls | .addTrip _ calls => calls

/-! ### Calls at fault -/

namespace Call

/-- Whether the stop of a call is one of the stops that there are. -/
def isKnown (stopCount : Nat) (c : Call) : Bool := c.stop < stopCount

/-- The nearest call at a known stop, of those that come before another. -/
def lastKnown? (stopCount : Nat) (before : List Call) : Option Call :=
  (before.filter (isKnown stopCount)).getLast?

/-- **Faults of calls.** What is wrong with a call that comes after others. -/
inductive AtFault (stopCount : Nat) (before : List Call) (c : Call) : FailureReason → Prop
  | stop : stopCount ≤ c.stop → AtFault stopCount before c .unknownStop
  | arrival : c.arrival.seconds < 0 → AtFault stopCount before c .invalidArrivalTime
  | departure : c.departure.seconds < 0 → AtFault stopCount before c .invalidDepartureTime
  | dwell : c.departure < c.arrival → AtFault stopCount before c .negativeDwellTime
  | sequence {previous : Call} : lastKnown? stopCount before = some previous →
      c.sequence ≤ previous.sequence → AtFault stopCount before c .invalidStopSequence
  | hop {previous : Call} : lastKnown? stopCount before = some previous →
      c.arrival < previous.departure → AtFault stopCount before c .negativeHopTime

variable {stopCount : Nat} {before : List Call} {c previous : Call} {reason : FailureReason}

/-- A fault of a call by itself is there whatever calls come before it. -/
private theorem atFault_of_fault? (h : c.fault? = some reason) :
    c.AtFault stopCount before reason := by
  rw [fault?] at h
  split_ifs at h with harrival hdeparture hdwell
  · obtain rfl := Option.some.inj h
    exact .arrival harrival
  · obtain rfl := Option.some.inj h
    exact .departure hdeparture
  · obtain rfl := Option.some.inj h
    exact .dwell (dwell_neg_iff.mp hdwell)

/-- A fault between two known calls is there whatever unknown ones stand between them. -/
private theorem atFault_of_hopFault? (hprevious : lastKnown? stopCount before = some previous)
    (h : previous.hopFault? c = some reason) : c.AtFault stopCount before reason := by
  rw [hopFault?] at h
  split_ifs at h with hsequence hhop
  · obtain rfl := Option.some.inj h
    exact .sequence hprevious hsequence
  · obtain rfl := Option.some.inj h
    exact .hop hprevious hhop

end Call

/-- The call at position `i` is the one at fault. -/
def FaultAt (stopCount : Nat) (calls : List Call) (i : Nat) (reason : FailureReason) : Prop :=
  ∃ c, calls[i]? = some c ∧ c.AtFault stopCount (calls.take i) reason

section Walk

variable {stopCount : Nat} {calls : List Call} {n k : Nat} {reason : FailureReason}

/-- A split of the calls at known stops comes from a split of all calls. -/
private theorem exists_split_of_filter {p : Call → Bool} {before after : List Call} {c : Call}
    (h : calls.filter p = before ++ c :: after) :
    ∃ before' after', calls = before' ++ c :: after' ∧ before'.filter p = before ∧ p c = true := by
  obtain ⟨front, back, rfl, rfl, hback⟩ := List.filter_eq_append_iff.mp h
  obtain ⟨skipped, after', rfl, hskipped, hc, -⟩ := List.filter_eq_cons_iff.mp hback
  refine ⟨front ++ skipped, after', (List.append_assoc _ _ _).symm, ?_, hc⟩
  rw [List.filter_append, List.filter_eq_nil_iff.mpr hskipped, List.append_nil]

private theorem faultAt_append {before after : List Call} {c : Call}
    (h : c.AtFault stopCount before reason) :
    FaultAt stopCount (before ++ c :: after) before.length reason :=
  ⟨c, by simp, by simpa using h⟩

/-! ### The walk along a trip -/

/-- What the walk objects to: a call by itself, or as one that follows its neighbour. -/
def FoundFault (before : List Call) (c : Call) (reason : FailureReason) : Prop :=
  c.fault? = some reason ∨ ∃ previous ∈ before.getLast?, previous.hopFault? c = some reason

/-- The position is that of a call which has the fault. -/
private theorem callFault?_eq_some (h : callFault? calls = some (k, reason)) :
    ∃ before c after, calls = before ++ c :: after ∧ k = before.length ∧
      FoundFault before c reason := by
  obtain ⟨previous?, c, hfirst, hreason⟩ := callFault?_eq_some_iff.mp h
  obtain ⟨hc, rfl⟩ := getElem?_withPrevious.mp hfirst.there
  obtain ⟨hk, rfl⟩ := List.getElem?_eq_some_iff.mp hc
  refine ⟨calls.take k, calls[k], calls.drop (k + 1), ?_, ?_, ?_⟩
  · rw [← List.drop_eq_getElem_cons hk, List.take_append_drop]
  · rw [List.length_take, Nat.min_eq_left (Nat.le_of_lt hk)]
  · have hfound := Call.reason?_eq_some_iff.mpr hreason
    rw [Call.reason?, Option.orElse_eq_orElse, Option.orElse_eq_or, Option.or_eq_some_iff] at hfound
    rcases hfound with hfault | ⟨-, hhop⟩
    · exact .inl hfault
    · exact .inr (Option.bind_eq_some_iff.mp hhop)

/-- A position that is reported is that of the first fault among the calls that were checked. -/
private theorem validateCalls_eq_error {trip : ScopedId} {e : UpdateError}
    (h : validateCalls trip calls = .error e) (hk : e.position = some k) :
    callFault? calls = some (k, e.reason) := by
  rcases validateCalls_eq_error_iff.mp h with ⟨-, rfl⟩ | ⟨-, rfl⟩ | ⟨-, n, reason, hfault, rfl⟩
  · cases hk
  · cases hk
  · obtain rfl := Option.some.inj hk
    exact callFault?_eq_some_iff.mpr hfault

/-- In a list from which the calls at unknown stops are left out, the neighbour of a call is the
nearest call at a known stop. -/
private theorem FoundFault.atFault {before : List Call} {c : Call}
    (h : FoundFault (before.filter (Call.isKnown stopCount)) c reason) :
    c.AtFault stopCount before reason := by
  rcases h with h | ⟨previous, hprevious, h⟩
  · exact Call.atFault_of_fault? h
  · exact Call.atFault_of_hopFault? hprevious h

end Walk

/-! ### The positions that mutations name -/

namespace Timetable

variable {t : Timetable} {calls : List Call} {e : UpdateError} {p : Nat}

/-- **Reroutes** name the position of a call at fault. -/
theorem faultAt_of_reroute {id : ScopedId} (h : (t.reroute id calls).2 = .error e)
    (hp : e.position = some p) : FaultAt t.stopCount calls p e.reason := by
  cases reroute_eq_error_iff.mp h with
  | trip => cases hp
  | stop _ hfirst =>
    obtain rfl := Option.some.inj hp
    exact ⟨_, hfirst.there, .stop hfirst.holds⟩
  | noCalls => cases hp
  | oneCall => cases hp
  | call _ hknown _ hfault =>
    obtain rfl := Option.some.inj hp
    obtain ⟨before, c, after, rfl, rfl, hfound⟩ :=
      callFault?_eq_some (callFault?_eq_some_iff.mpr hfault)
    -- all calls are at known stops, so leaving out the others changes nothing
    have hbefore : before.filter (Call.isKnown t.stopCount) = before :=
      List.filter_eq_self.mpr fun b hb => decide_eq_true (hknown b (List.mem_append_left _ hb))
    rw [← hbefore] at hfound
    exact faultAt_append hfound.atFault

/-- **Added trips** name a position among the calls at known stops. -/
theorem exists_faultAt_of_addTrip {trip : Trip} (h : (t.addTrip trip calls).2 = .error e)
    (hp : e.position = some p) :
    ∃ q c, calls[q]? = some c ∧ c.stop < t.stopCount ∧ FaultAt t.stopCount calls q e.reason ∧
      p = (calls.take q).countP (Call.isKnown t.stopCount) := by
  rw [addTrip] at h
  split_ifs at h with hold
  · obtain rfl := Except.error.inj h
    cases hp
  by_cases hnone : (!calls.isEmpty && (t.knownCalls calls).isEmpty) = true
  · rw [if_pos hnone] at h
    obtain rfl := Except.error.inj h
    cases hp
  rw [if_neg hnone] at h
  cases hvalid : validateCalls trip.id (t.knownCalls calls) with
  | ok => simp [hvalid] at h
  | error e' =>
    simp only [hvalid] at h
    obtain rfl := Except.error.inj h
    obtain ⟨before, c, after, hsplit, rfl, hfound⟩ :=
      callFault?_eq_some (validateCalls_eq_error hvalid hp)
    -- the checked list is what a filter leaves, so the call is found again in the full one
    obtain ⟨before, after, rfl, rfl, hc⟩ := exists_split_of_filter hsplit
    refine ⟨before.length, c, by simp, of_decide_eq_true hc, faultAt_append hfound.atFault, ?_⟩
    rw [List.take_left, List.countP_eq_length_filter]
    rfl

/-- The number of calls at known stops before a position is the position itself exactly if all
calls before it are at known stops. -/
private theorem countP_take_eq_iff {stopCount q : Nat} (hq : q ≤ calls.length) :
    (calls.take q).countP (Call.isKnown stopCount) = q ↔
      ∀ c ∈ calls.take q, c.stop < stopCount := by
  have hlength : (calls.take q).length = q := List.length_take_of_le hq
  conv_lhs => rhs; rw [← hlength]
  rw [List.countP_eq_length]
  simp [Call.isKnown]

/-- The position that comes with a failure of the mutation, if one does, is that of the call at
fault. -/
def PointsAtFault (t : Timetable) (m : Mutation) : Prop :=
  ∀ e p, (t.apply m).2 = .error e → e.position = some p → FaultAt t.stopCount m.calls p e.reason

/-- **Positions of failures.** The position that a reroute names is that of the call at fault. The
position that comes with an added trip is the number of calls at known stops before the call at
fault, which is itself at a known stop; that is its position exactly if no call before it was
left out. -/
theorem position_of_failure (t : Timetable) :
    (∀ id calls, t.PointsAtFault (.reroute id calls)) ∧
    ∀ trip calls e p, (t.apply (.addTrip trip calls)).2 = .error e → e.position = some p →
      ∃ q c, calls[q]? = some c ∧ c.stop < t.stopCount ∧ FaultAt t.stopCount calls q e.reason ∧
        p = (calls.take q).countP (Call.isKnown t.stopCount) ∧
        (p = q ↔ ∀ b ∈ calls.take q, b.stop < t.stopCount) := by
  constructor
  · intro id calls e p h hp
    exact faultAt_of_reroute h hp
  · intro trip calls e p h hp
    obtain ⟨q, c, hc, hknown, hfault, rfl⟩ := exists_faultAt_of_addTrip h hp
    have hq := Nat.le_of_lt (List.getElem?_eq_some_iff.mp hc).1
    exact ⟨q, c, hc, hknown, hfault, rfl, countP_take_eq_iff hq⟩

/-- A trip that is not in the schedule. -/
def nightBus : Trip := ⟨⟨"F", "N", by decide⟩, ⟨"F", "N9", by decide⟩, none, none⟩

/-- Its calls, of which the first is at a stop that is not among the first two, and the last is
left before it is reached. -/
def nightCalls : List Call :=
  [⟨7, 1, .hms 23 50 0, .hms 23 50 0⟩, ⟨0, 2, .hms 24 0 0, .hms 24 0 0⟩,
    ⟨1, 3, .hms 24 5 0, .hms 24 4 0⟩]

/-- The last call is at fault, and the failure names the position before. -/
theorem position_of_failure_nightCalls :
    ((empty 2).apply (.addTrip nightBus nightCalls)).2 =
        .error (.atCall nightBus.id .negativeDwellTime 1) ∧
      ∃ q c, nightCalls[q]? = some c ∧ c.stop < 2 ∧ FaultAt 2 nightCalls q .negativeDwellTime ∧
        1 = (nightCalls.take q).countP (Call.isKnown 2) ∧
        (1 = q ↔ ∀ b ∈ nightCalls.take q, b.stop < 2) :=
  ⟨by decide, (position_of_failure (empty 2)).2 nightBus nightCalls
    (.atCall nightBus.id .negativeDwellTime 1) 1 (by decide) rfl⟩

/-- The call at the position that the failure names has no fault. -/
theorem not_pointsAtFault : ¬ (empty 2).PointsAtFault (.addTrip nightBus nightCalls) := by
  intro h
  obtain ⟨c, hc, hfault⟩ := h (.atCall nightBus.id .negativeDwellTime 1) 1 (by decide) rfl
  obtain rfl : nightCalls[1] = c := Option.some.inj hc
  cases hfault with
  | dwell h => exact absurd h (by decide)

end Timetable

end Interchange
