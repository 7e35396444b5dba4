import Interchange.Proofs.Timetable.Reordering
import Interchange.Proofs.Update.Merge

/-!
# Batches one after the other

No mutation looks at the moment of the last batch, and none changes it (`Timetable.apply_note`). So
it makes no difference to the timetable whether two batches are applied at a moment one after the
other or as one, and the result of the one batch is merged from the results of the two
(`Timetable.applyBatch_append`).
-/

namespace Interchange

namespace Timetable

variable {t t' : Timetable} {m : Mutation}

/-! ### The moment does not matter -/

@[simp]
theorem note_note (t : Timetable) (updatedAt updatedAt' : Option Int) :
    (t.note updatedAt).note updatedAt' = t.note updatedAt' := rfl

@[simp]
theorem updatedAt_note (t : Timetable) (updatedAt : Option Int) :
    (t.note updatedAt).updatedAt = updatedAt := rfl

/-- What a mutation does, it does at any moment of the last batch. -/
private theorem Succeeds.note {warnings : List Warning} (hs : t.Succeeds m t' warnings)
    (updatedAt : Option Int) : (t.note updatedAt).Succeeds m (t'.note updatedAt) warnings := by
  cases hs with
  | withdrawn hkind hfound hlive hfresh => exact .withdrawn hkind hfound hlive hfresh
  | alreadyWithdrawn hkind hfound hlive hold => exact .alreadyWithdrawn hkind hfound hlive hold
  | rerouted hfound hlive hknown hvalid => exact .rerouted hfound hlive hknown hvalid
  | added hfresh hvalid => exact .added hfresh hvalid

/-- A mutation takes no notice of the moment and passes it on. -/
theorem apply_note (t : Timetable) (m : Mutation) (updatedAt : Option Int) :
    (t.note updatedAt).apply m = ((t.apply m).1.note updatedAt, (t.apply m).2) := by
  have htarget : t.target? m = (t.note updatedAt).target? m := by cases m <;> rfl
  have houtcome : (t.apply m).2 = ((t.note updatedAt).apply m).2 :=
    (apply_local (t := t) (u := t.note updatedAt) rfl htarget fun _ _ => rfl).1
  rcases apply_cases t m with ⟨e, hm⟩ | ⟨t', warnings, hm, hs⟩
  · rw [hm] at houtcome ⊢
    exact apply_of_error houtcome.symm
  · rw [hm]
    exact apply_of_succeeds (hs.note updatedAt)

/-- Mutations one after the other take no notice of the moment, either. -/
theorem applyAll_note (t : Timetable) (ms : List Mutation) (updatedAt : Option Int) :
    (t.note updatedAt).applyAll ms = ((t.applyAll ms).1.note updatedAt, (t.applyAll ms).2) := by
  induction ms generalizing t with
  | nil => rfl
  | cons m ms ih => rw [applyAll_cons, apply_note, ih, applyAll_cons]

/-! ### Two batches -/

/-- **Two batches.** At one moment they leave the timetable that they leave as one batch, and their
results are merged. -/
theorem applyBatch_append (t : Timetable) (xs ys : List Mutation) (moment : Int) :
    t.applyBatch (xs ++ ys) moment =
      (((t.applyBatch xs moment).1.applyBatch ys moment).1,
        (t.applyBatch xs moment).2.merge ((t.applyBatch xs moment).1.applyBatch ys moment).2) := by
  have hall := applyAll_append t xs ys
  simp only [applyBatch_eq, applyAll_note, hall, BatchResult.ofOutcomes_append, note_note,
    updatedAt_note]
  -- both batches note the same moment, so it does not matter which of them had the success
  have hmoment : ∀ a b : Nat, (if 0 < a + b then some moment else t.updatedAt) =
      if 0 < b then some moment else if 0 < a then some moment else t.updatedAt := by
    intro a b
    split_ifs <;> first | rfl | omega
  exact Prod.ext (congrArg (note _) (hmoment _ _)) rfl

/-! ### All together -/

/-- **Results add up.** A result says what can be read off its outcomes, and the result of a batch
is put together from the outcomes of its mutations one after the other. Merging puts the errors for
each reason together. Two batches at one moment leave the timetable that they leave as one batch,
whose result is merged from theirs, and in that no reason has an empty group of errors. -/
theorem results_add_up :
    (∀ outcomes, (BatchResult.ofOutcomes outcomes).Sums outcomes) ∧
      (∀ (t : Timetable) batch moment, t.applyBatch batch moment =
        ((t.applyAll batch).1.note
          (if 0 < (BatchResult.ofOutcomes (t.applyAll batch).2).successful then some moment
            else t.updatedAt),
          BatchResult.ofOutcomes (t.applyAll batch).2)) ∧
      (∀ (r r' : BatchResult) reason, (r.merge r').failures.find? reason =
        Option.merge (· ++ ·) (r.failures.find? reason) (r'.failures.find? reason)) ∧
      ∀ (t : Timetable) xs ys moment,
        t.applyBatch (xs ++ ys) moment =
            (((t.applyBatch xs moment).1.applyBatch ys moment).1,
              (t.applyBatch xs moment).2.merge
                ((t.applyBatch xs moment).1.applyBatch ys moment).2) ∧
          ∀ reason, (t.applyBatch (xs ++ ys) moment).2.failures.find? reason ≠ some [] :=
  ⟨BatchResult.sums_ofOutcomes, applyBatch_eq,
    fun r r' => SortedMap.find?_mergeWith _ r.failures r'.failures,
    fun t xs ys moment => ⟨applyBatch_append t xs ys moment, BatchResult.find?_failures_ne _⟩⟩

end Timetable

end Interchange
