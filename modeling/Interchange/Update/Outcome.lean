import Interchange.ScopedId
import Interchange.SortedMap

/-!
# Outcomes of realtime updates

Every mutation of a batch succeeds, possibly with warnings, or fails for one reason. A
`BatchResult` sums up the outcomes: successes and errors keep the order of the mutations, and
the errors are also grouped by reason.
-/

namespace Interchange

/-! ### Failures -/

/-- Why a mutation cannot be applied. -/
inductive FailureReason where
  | unknown
  | invalidInputStructure
  | tripNotFound
  | tripNotFoundInPattern
  | noTripForCancellationFound
  | tripAlreadyExists
  | noStartDate
  | noUpdates
  | noTripId
  | tooFewStops
  | noValidStops
  | noServiceOnDate
  | invalidArrivalTime
  | invalidDepartureTime
  | negativeDwellTime
  | negativeHopTime
  | invalidStopSequence
  | unknownStop
  | notImplementedUnscheduled
  | notImplementedDuplicated
  | notMonitored
deriving DecidableEq, Repr

namespace FailureReason

/-- All reasons, in their order. -/
def all : List FailureReason :=
  [.unknown, .invalidInputStructure, .tripNotFound, .tripNotFoundInPattern,
    .noTripForCancellationFound, .tripAlreadyExists, .noStartDate, .noUpdates, .noTripId,
    .tooFewStops, .noValidStops, .noServiceOnDate, .invalidArrivalTime, .invalidDepartureTime,
    .negativeDwellTime, .negativeHopTime, .invalidStopSequence, .unknownStop,
    .notImplementedUnscheduled, .notImplementedDuplicated, .notMonitored]

/-- The name of a reason. -/
def name : FailureReason → String
  | .unknown => "UNKNOWN"
  | .invalidInputStructure => "INVALID_INPUT_STRUCTURE"
  | .tripNotFound => "TRIP_NOT_FOUND"
  | .tripNotFoundInPattern => "TRIP_NOT_FOUND_IN_PATTERN"
  | .noTripForCancellationFound => "NO_TRIP_FOR_CANCELLATION_FOUND"
  | .tripAlreadyExists => "TRIP_ALREADY_EXISTS"
  | .noStartDate => "NO_START_DATE"
  | .noUpdates => "NO_UPDATES"
  | .noTripId => "NO_TRIP_ID"
  | .tooFewStops => "TOO_FEW_STOPS"
  | .noValidStops => "NO_VALID_STOPS"
  | .noServiceOnDate => "NO_SERVICE_ON_DATE"
  | .invalidArrivalTime => "INVALID_ARRIVAL_TIME"
  | .invalidDepartureTime => "INVALID_DEPARTURE_TIME"
  | .negativeDwellTime => "NEGATIVE_DWELL_TIME"
  | .negativeHopTime => "NEGATIVE_HOP_TIME"
  | .invalidStopSequence => "INVALID_STOP_SEQUENCE"
  | .unknownStop => "UNKNOWN_STOP"
  | .notImplementedUnscheduled => "NOT_IMPLEMENTED_UNSCHEDULED"
  | .notImplementedDuplicated => "NOT_IMPLEMENTED_DUPLICATED"
  | .notMonitored => "NOT_MONITORED"

/-- The place of a reason in `all`. -/
def rank (r : FailureReason) : Nat := all.idxOf r

private theorem getElem?_rank (r : FailureReason) : all[r.rank]? = some r := by
  cases r <;> rfl

theorem rank_injective {r r' : FailureReason} (h : r.rank = r'.rank) : r = r' := by
  have := getElem?_rank r
  rw [h, getElem?_rank r', Option.some.injEq] at this
  exact this.symm

instance : Ord FailureReason := ⟨compareOn rank⟩

instance : Std.TransOrd FailureReason := inferInstanceAs (Std.TransCmp (compareOn rank))

instance : Std.LawfulEqOrd FailureReason where
  compare_self := @Std.ReflCmp.compare_self FailureReason compare _
  eq_of_compare h :=
    rank_injective (@Std.LawfulEqCmp.eq_of_compare Nat compare _ _ _ h)

end FailureReason

/-- A mutation that was not applied. -/
structure UpdateError where
  /-- The trip it is about, if it names one -/
  trip : Option ScopedId
  reason : FailureReason
  /-- The position in the list of calls that is at fault -/
  position : Option Nat
deriving DecidableEq

namespace UpdateError

/-- A failure that concerns a trip. -/
def forTrip (trip : ScopedId) (reason : FailureReason) : UpdateError := ⟨some trip, reason, none⟩

/-- A failure at one of the calls of a trip. -/
def atCall (trip : ScopedId) (reason : FailureReason) (position : Nat) : UpdateError :=
  ⟨some trip, reason, some position⟩

/-- A failure in words. -/
def text (e : UpdateError) : String :=
  e.reason.name ++ match e.trip, e.position with
    | some trip, some n => s!" (trip {trip.text}, stop {n})"
    | some trip, none => s!" (trip {trip.text})"
    | none, some n => s!" (stop {n})"
    | none, none => ""

end UpdateError

/-! ### Successes -/

/-- Something odd about a mutation that was applied all the same. -/
inductive Warning where
  /-- Calls of an added trip at unknown stops were left out -/
  | unknownStopsRemovedFromAddedTrip
  /-- The trip was already cancelled or deleted -/
  | noOpCancellation
deriving DecidableEq, Repr

namespace Warning

/-- All warnings. -/
def all : List Warning := [.unknownStopsRemovedFromAddedTrip, .noOpCancellation]

/-- The name of a warning. -/
def name : Warning → String
  | .unknownStopsRemovedFromAddedTrip => "UNKNOWN_STOPS_REMOVED_FROM_ADDED_TRIP"
  | .noOpCancellation => "NO_OP_CANCELLATION"

end Warning

/-- What became of a mutation: its warnings, or why it failed. -/
abbrev Outcome := Except UpdateError (List Warning)

/-! ### Results of batches -/

/-- The outcomes of a batch, summed up. -/
structure BatchResult where
  successful : Nat := 0
  failed : Nat := 0
  /-- The errors by reason -/
  failures : SortedMap FailureReason (List UpdateError) := .empty
  /-- The warnings of all successes -/
  warnings : List Warning := []
  /-- The warnings of each success -/
  successes : List (List Warning) := []
  errors : List UpdateError := []
deriving DecidableEq

namespace BatchResult

/-- The result with one more outcome. -/
def add (r : BatchResult) : Outcome → BatchResult
  | .ok warnings =>
    { r with
      successful := r.successful + 1
      warnings := r.warnings ++ warnings
      successes := r.successes ++ [warnings] }
  | .error e =>
    { r with
      failed := r.failed + 1
      failures := r.failures.upsert e.reason [] (· ++ [e])
      errors := r.errors ++ [e] }

/-- Sums up outcomes. -/
def ofOutcomes (outcomes : List Outcome) : BatchResult := outcomes.foldl add {}

/-- The number of failures for a reason. -/
def failureCount (r : BatchResult) (reason : FailureReason) : Nat :=
  ((r.failures.find? reason).getD []).length

/-- The number of outcomes. -/
def total (r : BatchResult) : Nat := r.successful + r.failed

/-- Whether there were no outcomes. -/
def isEmpty (r : BatchResult) : Bool := r.total = 0

end BatchResult

end Interchange
