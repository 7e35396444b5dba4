import Interchange.Proofs.Timetable.Run
import Interchange.Proofs.Update.Outcome

/-!
# Mutations that fail

A mutation that fails leaves no trace: the timetable is what it was, and a batch from which
the failing mutations are left out (`Timetable.succeeding`) goes exactly as before. Each
remaining mutation finds the timetable that it found in the whole batch, so it has the outcome
that it had there (`Timetable.applyAll_succeeding`).
-/

namespace Interchange

namespace Timetable

variable {t : Timetable}

/-- The mutations of a batch that do not fail when the batch is applied. -/
def succeeding (t : Timetable) (batch : List Mutation) : List Mutation :=
  ((batch.zip (t.applyAll batch).2).filter fun p => p.2.isOk).map Prod.fst

/-- Whether a mutation is among those that succeed depends on the timetable that it finds. -/
private theorem succeeding_cons (t : Timetable) (m : Mutation) (ms : List Mutation) :
    t.succeeding (m :: ms) =
      if (t.apply m).2.isOk then m :: (t.apply m).1.succeeding ms
      else (t.apply m).1.succeeding ms := by
  rw [succeeding, applyAll_cons, List.zip_cons_cons, List.filter_cons]
  split_ifs <;> rfl

/-- The mutations that succeed keep their order. -/
theorem succeeding_sublist (t : Timetable) (batch : List Mutation) :
    (t.succeeding batch).Sublist batch := by
  have hzip : (batch.zip (t.applyAll batch).2).map Prod.fst = batch :=
    List.map_fst_zip (Nat.le_of_eq (length_applyAll t batch).symm)
  have hsublist := (List.filter_sublist (l := batch.zip (t.applyAll batch).2)
    (p := fun p => p.2.isOk)).map Prod.fst
  rwa [hzip] at hsublist

/-- **Leaving out failures.** Without the failing mutations a batch leads to the same
timetable, through the same outcomes but for the failures. -/
theorem applyAll_succeeding (t : Timetable) (batch : List Mutation) :
    t.applyAll (t.succeeding batch) =
      ((t.applyAll batch).1, (t.applyAll batch).2.filter Except.isOk) := by
  induction batch generalizing t with
  | nil => rfl
  | cons m ms ih =>
    rw [succeeding_cons, applyAll_cons, List.filter_cons]
    cases ho : (t.apply m).2 with
    | ok warnings =>
      have hok : (Except.ok warnings : Outcome).isOk = true := rfl
      rw [if_pos hok, if_pos hok, applyAll_cons, ih, ho]
    | error e =>
      -- the timetable is as before, so the rest of the batch does not notice
      have hsame : (t.apply m).1 = t := by rw [apply_of_error ho]
      have hfail : ¬ (Except.error e : Outcome).isOk = true := Bool.false_ne_true
      rw [if_neg hfail, if_neg hfail, hsame, ih]

/-- A batch without a success leaves the timetable as it was. -/
theorem applyBatch_of_successful_eq_zero {batch : List Mutation} {moment : Int}
    (h : (t.applyBatch batch moment).2.successful = 0) : (t.applyBatch batch moment).1 = t := by
  have hoks : (t.applyAll batch).2.filter Except.isOk = [] := by
    rw [← List.length_eq_zero_iff, ← BatchResult.successful_ofOutcomes]
    exact h
  have hnone : t.succeeding batch = [] := by
    rw [← List.length_eq_zero_iff, ← length_applyAll t, applyAll_succeeding, hoks]
    rfl
  have hall : (t.applyAll batch).1 = t := by
    have := congrArg Prod.fst (applyAll_succeeding t batch)
    rw [hnone] at this
    exact this.symm
  have hzero : ¬ 0 < (t.applyBatch batch moment).2.successful := by
    rw [h]
    exact Nat.lt_irrefl 0
  exact (if_neg hzero).trans hall

/-- **Failures leave no trace.** A mutation that fails changes nothing. A batch does what its
mutations do one after the other, and notes the moment if one of them succeeds. Without those of
its mutations that fail it leads to the same timetable with the same successes and warnings, and
none of the rest fails. -/
theorem failures_leave_no_trace (t : Timetable) :
    (∀ m e, (t.apply m).2 = .error e → (t.apply m).1 = t) ∧
      ∀ batch moment,
        t.applyBatch batch moment =
            ((t.applyAll batch).1.note
              (if 0 < (BatchResult.ofOutcomes (t.applyAll batch).2).successful then some moment
                else t.updatedAt),
              BatchResult.ofOutcomes (t.applyAll batch).2) ∧
          (t.succeeding batch).Sublist batch ∧
          t.applyBatch (t.succeeding batch) moment =
            ((t.applyBatch batch moment).1, (t.applyBatch batch moment).2.withoutFailures) := by
  constructor
  · intro m e h
    rw [apply_of_error h]
  · intro batch moment
    refine ⟨applyBatch_eq t batch moment, succeeding_sublist t batch, ?_⟩
    simp only [applyBatch, applyAll_succeeding, BatchResult.ofOutcomes_filter_isOk]
    rfl

/-- A trip cannot be cancelled before it has been added, and nothing comes of the attempt. -/
theorem failures_leave_no_trace_cancel_add :
    let shuttle : Trip := ⟨⟨"F", "S", by decide⟩, ⟨"F", "R", by decide⟩, none, none⟩
    let cancel := Mutation.cancel shuttle.id
    let add := Mutation.addTrip shuttle
      [⟨0, 1, .hms 8 0 0, .hms 8 0 0⟩, ⟨1, 2, .hms 8 5 0, .hms 8 5 0⟩]
    ((empty 2).apply cancel).1 = empty 2 ∧
      (empty 2).applyBatch [add, cancel] 0 =
        (((empty 2).applyBatch [cancel, add, cancel] 0).1,
          ((empty 2).applyBatch [cancel, add, cancel] 0).2.withoutFailures) := by
  intro shuttle cancel add
  have h := failures_leave_no_trace (empty 2)
  have hkept : (empty 2).succeeding [cancel, add, cancel] = [add, cancel] := by decide
  constructor
  · exact h.1 cancel (.forTrip shuttle.id .noTripForCancellationFound) rfl
  · have hbatch := (h.2 [cancel, add, cancel] 0).2.2
    rwa [hkept] at hbatch

end Timetable

end Interchange
