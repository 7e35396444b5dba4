import Interchange.Proofs.Connection.Index
import Interchange.Proofs.FirstGreatest
import Mathlib.Data.Int.ConditionallyCompleteOrder
import Mathlib.Order.ConditionallyCompleteLattice.Basic

/-!
# Which connection is boarded

A rider can board a connection if the times allow it. These times are kept within 32 bits, but a
comparison with a limit inside that range is passed before anything is cut off
(`clampShort_le_iff`), so the decision is the one of exact arithmetic
(`Connection.qualifies_iff`). Among the connections that qualify the search finds the first of
those that leave first (`ConnectionIndex.findBoarding_eq_some_iff`).
-/

namespace Interchange

/-! ### Comparisons with limits -/

namespace ServiceTime

variable {t limit a b : ServiceTime} {n : Int}

theorem latest_le_iff : a.latest b ≤ limit ↔ a ≤ limit ∧ b ≤ limit := by
  simp only [latest, le_iff]
  split_ifs <;> omega

/-- Below the end of the range, adding compares as in the integers. -/
private theorem add_le_iff (h : limit.seconds < maxShort) :
    t.add n ≤ limit ↔ t.seconds + n ≤ limit.seconds := by
  rw [le_iff, add, seconds_ofSeconds, clampShort_le_iff ⟨limit.mem.1, h⟩]

private theorem since_le_iff {wait : Int} (h : minShort ≤ wait ∧ wait < maxShort) :
    t.since a ≤ wait ↔ t.seconds - a.seconds ≤ wait := clampShort_le_iff h

end ServiceTime

/-! ### One connection -/

namespace Connection

/-- **Qualifying.** In exact arithmetic: the connection leaves where the rider is, it is not
forbidden, and the rider who alights at `alight` and usually needs `change` seconds makes it. -/
structure Qualifies (source : TripPosition) (alight change : Int) (c : Connection) : Prop where
  source_eq : c.source = source
  allowed : c.rule.priority ≠ .notAllowed
  /-- The target does not leave before the rider alights -/
  facilitated : c.rule.isFacilitated = true → alight ≤ c.targetTime.seconds
  /-- The usual time to change is left -/
  usual : c.rule.isFacilitated = false → alight + change ≤ c.targetTime.seconds
  /-- The time to change that the rule asks for is left -/
  ruled : c.rule.isFacilitated = false →
    ∀ n ∈ c.rule.minTransferTime, alight + n ≤ c.targetTime.seconds
  wait : ∀ n ∈ c.rule.maxWaitTime, c.targetTime.seconds - alight ≤ n

variable {c : Connection} {source : TripPosition} {alight earliest : ServiceTime} {change : Int}

/-- What a connection asks for, in the integers, if the limit is below the end of the range. -/
theorem requiredTime_le_iff {limit : ServiceTime} (h : limit.seconds < maxShort) :
    c.requiredTime alight (alight.add change) ≤ limit ↔
      (c.rule.isFacilitated = true → alight.seconds ≤ limit.seconds) ∧
      (c.rule.isFacilitated = false → alight.seconds + change ≤ limit.seconds) ∧
      (c.rule.isFacilitated = false →
        ∀ n ∈ c.rule.minTransferTime, alight.seconds + n ≤ limit.seconds) := by
  rw [requiredTime]
  cases c.rule.isFacilitated with
  | true => simp [ServiceTime.le_iff]
  | false =>
    cases c.rule.minTransferTime with
    | none => simp [ServiceTime.add_le_iff h]
    | some n => simp [ServiceTime.latest_le_iff, ServiceTime.add_le_iff h]

/-- Boarding takes a target that leaves late enough, and not so late that the wait is too long. -/
theorem canBoard_iff :
    c.canBoard alight earliest = true ↔
      c.requiredTime alight earliest ≤ c.targetTime ∧
        ∀ n ∈ c.rule.maxWaitTime, c.targetTime.since alight ≤ n := by
  rw [canBoard]
  cases c.rule.maxWaitTime <;> simp

/-- **No saturation.** Clamping never changes the decision if the limits are within the range. -/
theorem qualifies_iff (htime : c.targetTime.seconds < maxShort)
    (hwait : ∀ n ∈ c.rule.maxWaitTime, minShort ≤ n ∧ n < maxShort) :
    c.Qualifies source alight.seconds change ↔
      (c.source = source ∧ c.rule.priority ≠ .notAllowed) ∧
        c.canBoard alight (alight.add change) = true := by
  have hmax : (∀ n ∈ c.rule.maxWaitTime, c.targetTime.since alight ≤ n) ↔
      ∀ n ∈ c.rule.maxWaitTime, c.targetTime.seconds - alight.seconds ≤ n :=
    forall₂_congr fun n hn => ServiceTime.since_le_iff (hwait n hn)
  rw [canBoard_iff, requiredTime_le_iff htime, hmax]
  constructor
  · intro h
    exact ⟨⟨h.source_eq, h.allowed⟩, ⟨h.facilitated, h.usual, h.ruled⟩, h.wait⟩
  · rintro ⟨⟨hsource, hallowed⟩, ⟨hfacilitated, husual, hruled⟩, hwait⟩
    exact ⟨hsource, hallowed, hfacilitated, husual, hruled, hwait⟩

end Connection

/-! ### The search -/

namespace ConnectionIndex

variable {cs : List Connection} {source : TripPosition} {alight earliest : ServiceTime}

/-- Keeping the sooner of two is the usual search for a minimum. -/
theorem foldl_sooner (p : Connection → Bool) (cs : List Connection) :
    cs.foldl (fun best c => if p c then sooner best c else best) none =
      (cs.filter p).argmin fun c => c.targetTime.seconds := by
  induction cs using List.reverseRecOn with
  | nil => rfl
  | append_singleton cs c ih =>
    rw [List.foldl_append, ih, List.filter_append]
    cases hp : p c with
    | false => simp [hp]
    | true =>
      -- both keep the new one only if it is strictly sooner
      rw [List.filter_cons_of_pos hp, List.filter_nil, List.argmin_concat]
      cases (cs.filter p).argmin fun c => c.targetTime.seconds with
      | none => simp [hp, sooner]
      | some b => simp [hp, sooner, ServiceTime.lt_iff]

/-- What a search may end with: what leaves at the source and can be boarded. -/
def isCandidate (source : TripPosition) (alight earliest : ServiceTime) (c : Connection) : Bool :=
  c.canBoard alight earliest && (!c.rule.isNotAllowed && c.source = source)

/-- The boarding that is found is the first of the soonest among the candidates of the list. -/
theorem findBoarding_ofList (cs : List Connection) (source : TripPosition)
    (alight earliest : ServiceTime) :
    (ofList cs).findBoarding source alight earliest =
      ((cs.filter (isCandidate source alight earliest)).argmin
        fun c => c.targetTime.seconds).map (⟨·, earliest⟩) := by
  rw [findBoarding, foldl_sooner, lookup_ofList, List.filter_filter]
  rfl

/-- Within the range, the connections that can be boarded are those that qualify. -/
private theorem isCandidate_iff {c : Connection} {change : Int}
    (htime : c.targetTime.seconds < maxShort)
    (hwait : ∀ n ∈ c.rule.maxWaitTime, minShort ≤ n ∧ n < maxShort) :
    isCandidate source alight (alight.add change) c = true ↔
      c.Qualifies source alight.seconds change := by
  rw [Connection.qualifies_iff htime hwait]
  simp only [isCandidate, ConnectionRule.isNotAllowed, Bool.and_eq_true, Bool.not_eq_true',
    decide_eq_false_iff_not, decide_eq_true_eq]
  exact ⟨fun h => ⟨h.2.symm, h.1⟩, fun h => ⟨h.2, h.1.symm⟩⟩

variable {change : Int}

/-- **Boarding.** The search decides in exact arithmetic as long as the limits that the connections
set are within the range. -/
theorem findBoarding_eq_some_iff {b : Boarding}
    (htimes : ∀ c ∈ cs, c.targetTime.seconds < maxShort)
    (hwaits : ∀ c ∈ cs, ∀ n ∈ c.rule.maxWaitTime, minShort ≤ n ∧ n < maxShort) :
    (ofList cs).findBoarding source alight (alight.add change) = some b ↔
      b.earliest = alight.add change ∧
        ∃ i, FirstLeast (Connection.Qualifies source alight.seconds change)
          (fun c => c.targetTime.seconds) cs i b.connection := by
  have hiff : ∀ c ∈ cs, isCandidate source alight (alight.add change) c = true ↔
      c.Qualifies source alight.seconds change :=
    fun c hc => isCandidate_iff (htimes c hc) (hwaits c hc)
  rw [findBoarding_ofList, Option.map_eq_some_iff]
  constructor
  · rintro ⟨c, hc, rfl⟩
    obtain ⟨i, hi⟩ := argmin_filter_eq_some_iff.mp hc
    exact ⟨rfl, i, hi.of_forall_iff hiff⟩
  · rintro ⟨hearliest, i, hi⟩
    have hc := argmin_filter_eq_some_iff.mpr
      ⟨i, hi.of_forall_iff fun c hc => (hiff c hc).symm⟩
    refine ⟨b.connection, hc, ?_⟩
    rw [← hearliest]

/-- Nothing is boarded exactly if no connection qualifies. -/
theorem findBoarding_eq_none_iff (htimes : ∀ c ∈ cs, c.targetTime.seconds < maxShort)
    (hwaits : ∀ c ∈ cs, ∀ n ∈ c.rule.maxWaitTime, minShort ≤ n ∧ n < maxShort) :
    (ofList cs).findBoarding source alight (alight.add change) = none ↔
      ∀ c ∈ cs, ¬ c.Qualifies source alight.seconds change := by
  rw [findBoarding_ofList, Option.map_eq_none_iff, List.argmin_eq_none, List.filter_eq_nil_iff]
  exact forall₂_congr fun c hc => not_congr (isCandidate_iff (htimes c hc) (hwaits c hc))

end ConnectionIndex

end Interchange
