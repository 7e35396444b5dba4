import Interchange.Update.Outcome
import Mathlib.Data.List.Induction
import Mathlib.Tactic.Common

/-!
# Results of batches

A result is summed up outcome by outcome, and says what can be read off their list: which are
successes and which are errors, how many there are of them, and for which reasons
(`BatchResult.sums_ofOutcomes`). What it says about successes depends on the successes alone, so
leaving the failures out of a batch changes nothing else in its result
(`BatchResult.ofOutcomes_filter_isOk`). Its numbers do not depend on the order of the outcomes
(`BatchResult.counts_of_perm`).
-/

namespace Interchange

namespace BatchResult

/-- The result without its failures. -/
def withoutFailures (r : BatchResult) : BatchResult :=
  { r with failed := 0, failures := .empty, errors := [] }

theorem ofOutcomes_concat (outcomes : List Outcome) (o : Outcome) :
    ofOutcomes (outcomes ++ [o]) = (ofOutcomes outcomes).add o := by
  rw [ofOutcomes, List.foldl_append]
  rfl

/-! ### What a result says -/

/-- The error of an outcome that is a failure. -/
def errorOf? : Outcome → Option UpdateError
  | .ok _ => none
  | .error e => some e

/-- **Faithful results.** What `r` says is what can be read off the outcomes. -/
structure Sums (outcomes : List Outcome) (r : BatchResult) : Prop where
  successes : r.successes = outcomes.filterMap Except.toOption
  errors : r.errors = outcomes.filterMap errorOf?
  successful : r.successful = r.successes.length
  failed : r.failed = r.errors.length
  total : r.total = outcomes.length
  warnings : r.warnings = r.successes.flatten
  /-- A reason has its errors in their order, if there are any -/
  failures : ∀ reason es, r.failures.find? reason = some es ↔
    (∃ e ∈ r.errors, e.reason = reason) ∧ es = r.errors.filter fun e => e.reason = reason

namespace Sums

variable {outcomes : List Outcome} {r : BatchResult}

/-- The errors under a reason are those with that reason, also if there are none. -/
private theorem getD_find?_failures (h : Sums outcomes r) (reason : FailureReason) :
    (r.failures.find? reason).getD [] = r.errors.filter fun e => e.reason = reason := by
  cases hfind : r.failures.find? reason with
  | some es => exact ((h.failures reason es).mp hfind).2
  | none =>
    have hnone : ∀ e ∈ r.errors, ¬ e.reason = reason := by
      intro e he hreason
      have hsome := (h.failures reason _).mpr ⟨⟨e, he, hreason⟩, rfl⟩
      rw [hfind] at hsome
      cases hsome
    exact (List.filter_eq_nil_iff.mpr (by simpa using hnone)).symm

private theorem add_ok (h : Sums outcomes r) (warnings : List Warning) :
    Sums (outcomes ++ [.ok warnings]) (r.add (.ok warnings)) where
  successes := by simp [add, h.successes, Except.toOption]
  errors := by simp [add, h.errors, errorOf?]
  successful := by simp [add, h.successful]
  failed := h.failed
  total := by
    have htotal := h.total
    simp only [BatchResult.total, add, List.length_append, List.length_singleton] at htotal ⊢
    omega
  warnings := by simp [add, h.warnings]
  failures := h.failures

private theorem add_error (h : Sums outcomes r) (e : UpdateError) :
    Sums (outcomes ++ [.error e]) (r.add (.error e)) where
  successes := by simp [add, h.successes, Except.toOption]
  errors := by simp [add, h.errors, errorOf?]
  successful := h.successful
  failed := by simp [add, h.failed]
  total := by
    have htotal := h.total
    simp only [BatchResult.total, add, List.length_append, List.length_singleton] at htotal ⊢
    omega
  warnings := h.warnings
  failures := by
    intro reason es
    simp only [add, SortedMap.find?_upsert]
    by_cases hreason : reason = e.reason
    · -- the error goes behind those that its reason has
      have hgroup := h.getD_find?_failures reason
      subst hreason
      simp [hgroup, eq_comm]
    · have hother := h.failures reason es
      simp only [if_neg hreason, hother, List.filter_append, List.mem_append, List.mem_singleton]
      simp [or_and_right, exists_or, Ne.symm hreason]

end Sums

/-- **Results are faithful**, since every outcome that is added is recorded everywhere. -/
theorem sums_ofOutcomes (outcomes : List Outcome) : Sums outcomes (ofOutcomes outcomes) := by
  induction outcomes using List.reverseRecOn with
  | nil =>
    refine ⟨rfl, rfl, rfl, rfl, rfl, rfl, fun reason es => ?_⟩
    simp [ofOutcomes]
  | append_singleton outcomes o ih =>
    rw [ofOutcomes_concat]
    cases o with
    | ok warnings => exact ih.add_ok warnings
    | error e => exact ih.add_error e

/-- No reason has an empty group of errors. -/
theorem find?_failures_ne (outcomes : List Outcome) (reason : FailureReason) :
    (ofOutcomes outcomes).failures.find? reason ≠ some [] := by
  intro hnil
  obtain ⟨⟨e, he, hreason⟩, hempty⟩ := ((sums_ofOutcomes outcomes).failures reason []).mp hnil
  have hmem : e ∈ (ofOutcomes outcomes).errors.filter fun e => e.reason = reason :=
    List.mem_filter.mpr ⟨he, by simpa using hreason⟩
  rw [← hempty] at hmem
  cases hmem

/-- The number of successes is that of the outcomes which are no failures. -/
theorem successful_ofOutcomes (outcomes : List Outcome) :
    (ofOutcomes outcomes).successful = (outcomes.filter Except.isOk).length := by
  have hsums := sums_ofOutcomes outcomes
  have hok : ∀ o : Outcome, o.toOption.isSome = o.isOk := by rintro (e | warnings) <;> rfl
  rw [hsums.successful, hsums.successes, List.length_filterMap_eq_countP,
    List.countP_eq_length_filter]
  exact congrArg List.length (List.filter_congr fun o _ => hok o)

/-! ### Parts of a result -/

/-- **Successes count alone.** The outcomes that are no failures have the result of all
outcomes, without the failures. -/
theorem ofOutcomes_filter_isOk (outcomes : List Outcome) :
    ofOutcomes (outcomes.filter Except.isOk) = (ofOutcomes outcomes).withoutFailures := by
  induction outcomes using List.reverseRecOn with
  | nil => rfl
  | append_singleton outcomes o ih =>
    rw [ofOutcomes_concat, List.filter_append]
    cases o with
    | error e =>
      have hkept : [(Except.error e : Outcome)].filter Except.isOk = [] := rfl
      rw [hkept, List.append_nil, ih]
      rfl
    | ok warnings =>
      have hkept : [(Except.ok warnings : Outcome)].filter Except.isOk = [.ok warnings] := rfl
      rw [hkept, ofOutcomes_concat, ih]
      rfl

/-- **Numbers.** Outcomes in another order come to the same numbers. -/
theorem counts_of_perm {outcomes outcomes' : List Outcome} (h : outcomes.Perm outcomes') :
    (ofOutcomes outcomes).successful = (ofOutcomes outcomes').successful ∧
      (ofOutcomes outcomes).failed = (ofOutcomes outcomes').failed ∧
      ∀ reason, (ofOutcomes outcomes).failureCount reason =
        (ofOutcomes outcomes').failureCount reason := by
  have hsums := sums_ofOutcomes outcomes
  have hsums' := sums_ofOutcomes outcomes'
  have herrors : (ofOutcomes outcomes).errors.Perm (ofOutcomes outcomes').errors := by
    rw [hsums.errors, hsums'.errors]
    exact h.filterMap errorOf?
  refine ⟨?_, ?_, fun reason => ?_⟩
  · rw [successful_ofOutcomes, successful_ofOutcomes]
    exact (h.filter _).length_eq
  · rw [hsums.failed, hsums'.failed]
    exact herrors.length_eq
  · rw [failureCount, failureCount, hsums.getD_find?_failures, hsums'.getD_find?_failures]
    exact (herrors.filter _).length_eq

end BatchResult

end Interchange
