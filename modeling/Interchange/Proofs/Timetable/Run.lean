import Interchange.Proofs.Timetable.Mutation

/-!
# Runs of mutations

A timetable changes by mutations, which come in batches. Whatever every successful mutation
preserves, a whole run preserves (`applyAll_preserves`), and so does a run of batches
(`applyBatches_preserves`) if it does not depend on the moment that a batch notes. Noting it is all
that a batch does besides its mutations (`applyBatch_eq`).
-/

namespace Interchange

namespace Timetable

/-- The timetable after batches, each applied at its moment. -/
def applyBatches (t : Timetable) (batches : List (List Mutation × Int)) : Timetable :=
  batches.foldl (fun t b => (t.applyBatch b.1 b.2).1) t

/-- The timetable with another moment of the last batch. -/
def note (t : Timetable) (updatedAt : Option Int) : Timetable := { t with updatedAt }

variable {P : Timetable → Prop} {t : Timetable}

/-! ### Mutations one after the other -/

/-- The first mutation of a run sets out from the timetable itself, the rest from what it leaves. -/
theorem applyAll_cons (t : Timetable) (m : Mutation) (ms : List Mutation) :
    t.applyAll (m :: ms) =
      (((t.apply m).1.applyAll ms).1, (t.apply m).2 :: ((t.apply m).1.applyAll ms).2) := rfl

theorem applyAll_append (t : Timetable) (ms ms' : List Mutation) :
    t.applyAll (ms ++ ms') =
      (((t.applyAll ms).1.applyAll ms').1,
        (t.applyAll ms).2 ++ ((t.applyAll ms).1.applyAll ms').2) := by
  induction ms generalizing t with
  | nil => rfl
  | cons m ms ih => rw [List.cons_append, applyAll_cons, applyAll_cons, ih, List.cons_append]

theorem applyAll_concat (t : Timetable) (ms : List Mutation) (m : Mutation) :
    (t.applyAll (ms ++ [m])).1 = ((t.applyAll ms).1.apply m).1 := by
  rw [applyAll_append]
  rfl

theorem length_applyAll (t : Timetable) (ms : List Mutation) :
    (t.applyAll ms).2.length = ms.length := by
  induction ms generalizing t with
  | nil => rfl
  | cons m ms ih => rw [applyAll_cons, List.length_cons, List.length_cons, ih]

/-! ### What a run preserves -/

/-- One step: what successes preserve survives any mutation, for a failure changes nothing. -/
theorem apply_preserves
    (hstep : ∀ {t m t' warnings}, Succeeds t m t' warnings → P t → P t') (m : Mutation)
    (h : P t) : P (t.apply m).1 := by
  rcases apply_cases t m with ⟨e, hm⟩ | ⟨t', warnings, hm, hs⟩
  · rwa [hm]
  · rw [hm]
    exact hstep hs h

/-- A run: what successes preserve survives mutations one after the other. -/
theorem applyAll_preserves
    (hstep : ∀ {t m t' warnings}, Succeeds t m t' warnings → P t → P t') (ms : List Mutation)
    (h : P t) : P (t.applyAll ms).1 := by
  induction ms generalizing t with
  | nil => exact h
  | cons m ms ih => exact ih (apply_preserves hstep m h)

/-- A batch: noting the moment has to preserve it, too. -/
theorem applyBatch_preserves
    (hstep : ∀ {t m t' warnings}, Succeeds t m t' warnings → P t → P t')
    (hmoment : ∀ {t} updatedAt, P t → P { t with updatedAt }) (batch : List Mutation)
    (moment : Int) (h : P t) : P (t.applyBatch batch moment).1 := by
  have hall := applyAll_preserves hstep batch h
  simp only [applyBatch]
  split_ifs
  · exact hmoment _ hall
  · exact hall

/-- A run of batches, at whatever moments. -/
theorem applyBatches_preserves
    (hstep : ∀ {t m t' warnings}, Succeeds t m t' warnings → P t → P t')
    (hmoment : ∀ {t} updatedAt, P t → P { t with updatedAt })
    (batches : List (List Mutation × Int)) (h : P t) : P (t.applyBatches batches) := by
  induction batches generalizing t with
  | nil => exact h
  | cons b batches ih => exact ih (applyBatch_preserves hstep hmoment b.1 b.2 h)

/-! ### What no mutation changes -/

/-- A success is about trips. -/
private theorem Succeeds.same_besides_trips {t t' : Timetable} {m : Mutation}
    {warnings : List Warning} (hs : t.Succeeds m t' warnings) :
    t'.stopCount = t.stopCount ∧ t'.updatedAt = t.updatedAt := by
  cases hs <;> exact ⟨rfl, rfl⟩

@[simp]
theorem stopCount_apply (t : Timetable) (m : Mutation) : (t.apply m).1.stopCount = t.stopCount :=
  apply_preserves (P := fun u => u.stopCount = t.stopCount)
    (fun hs h => hs.same_besides_trips.1.trans h) m rfl

@[simp]
theorem updatedAt_apply (t : Timetable) (m : Mutation) : (t.apply m).1.updatedAt = t.updatedAt :=
  apply_preserves (P := fun u => u.updatedAt = t.updatedAt)
    (fun hs h => hs.same_besides_trips.2.trans h) m rfl

/-- No run changes the number of stops. -/
theorem stopCount_applyAll (t : Timetable) (batch : List Mutation) :
    (t.applyAll batch).1.stopCount = t.stopCount :=
  applyAll_preserves (P := fun u => u.stopCount = t.stopCount)
    (fun hs h => hs.same_besides_trips.1.trans h) batch rfl

/-- Mutations do not note when they are applied; that is left to the batch. -/
theorem updatedAt_applyAll (t : Timetable) (batch : List Mutation) :
    (t.applyAll batch).1.updatedAt = t.updatedAt :=
  applyAll_preserves (P := fun u => u.updatedAt = t.updatedAt)
    (fun hs h => hs.same_besides_trips.2.trans h) batch rfl

/-- **A batch.** It does what its mutations do one after the other, and besides it changes nothing
but the moment, and that if it has a success. Its result is put together from their outcomes. -/
theorem applyBatch_eq (t : Timetable) (batch : List Mutation) (moment : Int) :
    t.applyBatch batch moment =
      ((t.applyAll batch).1.note
          (if 0 < (BatchResult.ofOutcomes (t.applyAll batch).2).successful then some moment
            else t.updatedAt),
        BatchResult.ofOutcomes (t.applyAll batch).2) := by
  have hsame : (t.applyAll batch).1.note t.updatedAt = (t.applyAll batch).1 := by
    rw [note, ← updatedAt_applyAll t batch]
  rw [applyBatch]
  dsimp only
  split_ifs
  · rfl
  · rw [hsame]

end Timetable

end Interchange
