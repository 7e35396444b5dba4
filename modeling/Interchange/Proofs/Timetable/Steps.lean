import Interchange.Proofs.Timetable.Edit

/-!
# The steps of a run

A run is looked at step by step: which timetable each of its mutations found, which one it left,
and with which outcome. The steps of a run make a path through the timetables (`Timetable.Path`),
and so do those of batches, where moments are noted in between.
-/

namespace Interchange

/-- One mutation of a run, with the timetable that it finds. -/
structure Step where
  before : Timetable
  mutation : Mutation

namespace Step

/-- The timetable that the mutation leaves. -/
def after (s : Step) : Timetable := (s.before.apply s.mutation).1

def outcome (s : Step) : Outcome := (s.before.apply s.mutation).2

/-- The step adds a trip. -/
def adds (s : Step) : Bool := (s.before.added? s.mutation).isSome

end Step

namespace Timetable

/-- The mutations of a run, each with the timetable that it finds. -/
def steps (t : Timetable) : List Mutation → List Step
  | [] => []
  | m :: ms => ⟨t, m⟩ :: (t.apply m).1.steps ms

/-- The mutations of all batches, each with the timetable that it finds. -/
def stepsOfBatches (t : Timetable) : List (List Mutation × Int) → List Step
  | [] => []
  | b :: bs => t.steps b.1 ++ (t.applyBatch b.1 b.2).1.stepsOfBatches bs

/-- **Paths.** The steps lead from a timetable to another one. Moments may be noted in between. -/
inductive Path : Timetable → List Step → Timetable → Prop
  | nil (t : Timetable) : Path t [] t
  | note {t u : Timetable} {l : List Step} (updatedAt : Option Int)
      (rest : Path (t.note updatedAt) l u) : Path t l u
  | step {t u : Timetable} {l : List Step} (m : Mutation) (rest : Path (t.apply m).1 l u) :
      Path t (⟨t, m⟩ :: l) u

theorem Path.append {t u v : Timetable} {l l' : List Step} (h : t.Path l u) (h' : u.Path l' v) :
    t.Path (l ++ l') v := by
  induction h with
  | nil => exact h'
  | note updatedAt _ ih => exact .note updatedAt (ih h')
  | step m _ ih => exact .step m (ih h')

/-- The steps of a run lead to where the run ends. -/
theorem path_steps (t : Timetable) (ms : List Mutation) :
    t.Path (t.steps ms) (t.applyAll ms).1 := by
  induction ms generalizing t with
  | nil => exact .nil t
  | cons m ms ih => exact .step m (ih (t.apply m).1)

/-- The steps of batches lead to what the batches leave. -/
theorem path_stepsOfBatches (t : Timetable) (batches : List (List Mutation × Int)) :
    t.Path (t.stepsOfBatches batches) (t.applyBatches batches) := by
  induction batches generalizing t with
  | nil => exact .nil t
  | cons b batches ih =>
    have hsteps : t.Path (t.steps b.1) (t.applyBatch b.1 b.2).1 := by
      have hrun := path_steps t b.1
      rw [applyBatch]
      dsimp only
      split_ifs
      · -- the moment is noted after the last step
        have hnote : (t.applyAll b.1).1.Path [] ((t.applyAll b.1).1.note b.2) :=
          .note b.2 (.nil _)
        have happend := hrun.append hnote
        rwa [List.append_nil] at happend
      · exact hrun
    exact hsteps.append (ih (t.applyBatch b.1 b.2).1)

/-- The steps of a run have its mutations and its outcomes, in their order. -/
theorem map_steps (t : Timetable) (ms : List Mutation) :
    (t.steps ms).map (fun s => (s.mutation, s.outcome)) = ms.zip (t.applyAll ms).2 := by
  induction ms generalizing t with
  | nil => rfl
  | cons m ms ih =>
    rw [steps, List.map_cons, ih, applyAll_cons, List.zip_cons_cons]
    rfl

end Timetable

end Interchange
