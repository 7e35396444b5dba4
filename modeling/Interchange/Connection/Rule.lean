/-!
# Rules on connections

Feeds can override the usual transfer logic between two trips: guarantee the connection, let
riders stay seated, ask for a longer time to change, limit the wait, or forbid the transfer.
A rule is *facilitated* if the rider makes the connection whatever the slack, because the
target waits or is the same vehicle.
-/

namespace Interchange

/-- How much riders should prefer a transfer, lowest first. -/
inductive Priority where
  | notAllowed
  | allowed
  | recommended
  | preferred
deriving DecidableEq, Repr

/-- The name of a priority. -/
def Priority.name : Priority → String
  | .notAllowed => "not_allowed"
  | .allowed => "allowed"
  | .recommended => "recommended"
  | .preferred => "preferred"

/-- All priorities, lowest first. -/
def Priority.all : List Priority := [.notAllowed, .allowed, .recommended, .preferred]

/-- A rule on a connection; the default overrides nothing. -/
structure ConnectionRule where
  priority : Priority := .allowed
  staySeated : Bool := false
  guaranteed : Bool := false
  /-- Replaces the usual time to change, in seconds -/
  minTransferTime : Option Int := none
  /-- The longest wait for the target, in seconds -/
  maxWaitTime : Option Int := none
deriving DecidableEq

/-- The longest time that a rule may ask for, in seconds: one day. -/
def longestRuleTime : Int := 86400

/-- A time of a rule that is out of range. -/
structure RuleError where
  field : String
  seconds : Int
deriving DecidableEq, Repr

/-- The wording of a refusal. -/
def RuleError.message (e : RuleError) : String :=
  s!"{e.field} of {e.seconds}s is outside 0..={longestRuleTime}"

namespace ConnectionRule

/-- A rule that overrides nothing. -/
def regular : ConnectionRule := {}

/-- A rule that forbids the transfer. -/
def notAllowed : ConnectionRule := { priority := .notAllowed }

/-- Whether the connection is made whatever the slack. -/
def isFacilitated (r : ConnectionRule) : Bool := r.staySeated || r.guaranteed

/-- Whether the transfer is forbidden. -/
def isNotAllowed (r : ConnectionRule) : Bool := r.priority = .notAllowed

/-- Whether the rule overrides nothing but the priority. -/
def isRegular (r : ConnectionRule) : Bool :=
  !r.isNotAllowed && !r.isFacilitated && r.minTransferTime.isNone && r.maxWaitTime.isNone

private def checkTime (field : String) : Option Int → Except RuleError Unit
  | none => .ok ()
  | some n => if 0 ≤ n ∧ n ≤ longestRuleTime then .ok () else .error ⟨field, n⟩

/-- Checks that both times are in range. -/
def validate (r : ConnectionRule) : Except RuleError Unit := do
  checkTime "min_transfer_time" r.minTransferTime
  checkTime "max_wait_time" r.maxWaitTime

/-! ### What the check says -/

/-- The times of the rule are in range, where it has them. -/
structure InRange (r : ConnectionRule) : Prop where
  minTransferTime : ∀ n ∈ r.minTransferTime, 0 ≤ n ∧ n ≤ longestRuleTime
  maxWaitTime : ∀ n ∈ r.maxWaitTime, 0 ≤ n ∧ n ≤ longestRuleTime

/-- A time of the rule is out of range; the time to change comes first. -/
inductive OutOfRange (r : ConnectionRule) : RuleError → Prop where
  | minTransferTime {n : Int} : r.minTransferTime = some n → ¬ (0 ≤ n ∧ n ≤ longestRuleTime) →
      OutOfRange r ⟨"min_transfer_time", n⟩
  | maxWaitTime {n : Int} : (∀ n ∈ r.minTransferTime, 0 ≤ n ∧ n ≤ longestRuleTime) →
      r.maxWaitTime = some n → ¬ (0 ≤ n ∧ n ≤ longestRuleTime) →
      OutOfRange r ⟨"max_wait_time", n⟩

private theorem checkTime_eq_ok_iff {field : String} {time : Option Int} :
    checkTime field time = .ok () ↔ ∀ n ∈ time, 0 ≤ n ∧ n ≤ longestRuleTime := by
  cases time with
  | none => simp [checkTime]
  | some n => simp [checkTime]

private theorem checkTime_eq_error_iff {field : String} {time : Option Int} {e : RuleError} :
    checkTime field time = .error e ↔
      ∃ n, time = some n ∧ ¬ (0 ≤ n ∧ n ≤ longestRuleTime) ∧ ⟨field, n⟩ = e := by
  cases time with
  | none => simp [checkTime]
  | some n =>
    have hfound : (∃ m, some n = some m ∧ ¬ (0 ≤ m ∧ m ≤ longestRuleTime) ∧ ⟨field, m⟩ = e) ↔
        ¬ (0 ≤ n ∧ n ≤ longestRuleTime) ∧ ⟨field, n⟩ = e := by
      simp only [Option.some.injEq, exists_eq_left']
    rw [hfound, checkTime]
    split
    next hrange => exact ⟨fun h => (nomatch h), fun h => absurd hrange h.1⟩
    next hrange => exact ⟨fun h => ⟨hrange, Except.error.inj h⟩, fun h => congrArg _ h.2⟩

/-- The check lets pass exactly the rules in range. -/
theorem validate_eq_ok_iff {r : ConnectionRule} : r.validate = .ok () ↔ r.InRange := by
  have hvalidate : r.validate = .ok () ↔
      checkTime "min_transfer_time" r.minTransferTime = .ok () ∧
        checkTime "max_wait_time" r.maxWaitTime = .ok () := by
    rw [validate]
    cases checkTime "min_transfer_time" r.minTransferTime <;> simp [bind, Except.bind]
  rw [hvalidate, checkTime_eq_ok_iff, checkTime_eq_ok_iff]
  exact ⟨fun h => ⟨h.1, h.2⟩, fun h => ⟨h.1, h.2⟩⟩

/-- Of the times out of range, the first of the rule is reported. -/
theorem validate_eq_error_iff {r : ConnectionRule} {e : RuleError} :
    r.validate = .error e ↔ r.OutOfRange e := by
  have hvalidate : r.validate = .error e ↔
      checkTime "min_transfer_time" r.minTransferTime = .error e ∨
        checkTime "min_transfer_time" r.minTransferTime = .ok () ∧
          checkTime "max_wait_time" r.maxWaitTime = .error e := by
    rw [validate]
    cases checkTime "min_transfer_time" r.minTransferTime <;> simp [bind, Except.bind]
  rw [hvalidate, checkTime_eq_error_iff, checkTime_eq_ok_iff, checkTime_eq_error_iff]
  constructor
  · rintro (⟨n, htime, hrange, rfl⟩ | ⟨hmin, n, htime, hrange, rfl⟩)
    · exact .minTransferTime htime hrange
    · exact .maxWaitTime hmin htime hrange
  · rintro (⟨htime, hrange⟩ | ⟨hmin, htime, hrange⟩)
    · exact .inl ⟨_, htime, hrange, rfl⟩
    · exact .inr ⟨hmin, _, htime, hrange, rfl⟩

end ConnectionRule

end Interchange
