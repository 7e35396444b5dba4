import Interchange.Transfer.Graph
import Mathlib.Data.List.Nodup
import Mathlib.Data.List.Perm.Basic
import Mathlib.Tactic.Common

/-!
# Sharing the forward pass

The slots and the stops of a forward pass are cut into chunks separately, and chunks at the same
place make a task. Both cuts fall at the same places (`flatten_zipWith_zip_chunks`), so each slot
is paired with its own stop, however short the last chunk is and however many workers there are.
The tasks together write to every slot once (`flatMap_writes_passTasks`). That makes the order of
their writes irrelevant (`writeAll_perm`): it does not matter in which order tasks run, nor how
they overtake each other.
-/

namespace Interchange

/-! ### Chunks -/

section Chunks

variable {α β : Type} {size : Nat}

@[simp]
theorem chunks_nil : chunks size ([] : List α) = [] := by
  rw [chunks]

theorem chunks_cons (a : α) (as : List α) :
    chunks size (a :: as) = (a :: as.take (size - 1)) :: chunks size (as.drop (size - 1)) := by
  rw [chunks]

/-- A list that fits into `n` chunks is cut into no more. -/
private theorem length_chunks_le {n : Nat} {as : List α} (hsize : 0 < size)
    (h : as.length ≤ n * size) :
    (chunks size as).length ≤ n := by
  induction as using chunks.induct size generalizing n with
  | case1 => simp
  | case2 a as ih =>
    cases n with
    | zero => simp at h
    | succ n =>
      have hrest : (as.drop (size - 1)).length ≤ n * size := by
        rw [List.length_cons, Nat.succ_mul] at h
        rw [List.length_drop]
        omega
      rw [chunks_cons, List.length_cons]
      exact Nat.succ_le_succ (ih hrest)

/-- **Two lists are cut alike.** The pairs within chunks at the same place are the pairs of the
whole lists. -/
theorem flatten_zipWith_zip_chunks (size : Nat) (as : List α) (bs : List β) :
    (List.zipWith List.zip (chunks size as) (chunks size bs)).flatten = as.zip bs := by
  induction as using chunks.induct size generalizing bs with
  | case1 => simp
  | case2 a as ih =>
    cases bs with
    | nil => simp
    | cons b bs =>
      rw [chunks_cons, chunks_cons, List.zipWith_cons_cons, List.flatten_cons, ih,
        List.zip_cons_cons, List.zip_cons_cons, List.cons_append]
      simp only [List.zip_eq_zipWith, ← List.take_zipWith, ← List.drop_zipWith,
        List.take_append_drop]

end Chunks

/-! ### Writing to slots -/

section Writes

variable {lists : List (List Edge)} {ws ws' : List (StopIndex × List Edge)}

/-- **Order does not matter.** Writes to different slots can be made in any order. -/
theorem writeAll_perm (h : ws.Perm ws') (hslots : (ws.map Prod.fst).Nodup) :
    writeAll lists ws = writeAll lists ws' := by
  refine h.foldl_eq' (fun x hx y hy lists => ?_) lists
  by_cases hxy : x = y
  · rw [hxy]
  · have hslot : x.1 ≠ y.1 := fun heq => hxy (List.inj_on_of_nodup_map hslots hx hy heq)
    exact List.set_comm _ _ hslot

private theorem writeAll_append_left (done old new : List (List Edge))
    (h : old.length = new.length) :
    writeAll (done ++ old) ((List.range' done.length old.length).zip new) = done ++ new := by
  induction new generalizing done old with
  | nil =>
    obtain rfl := List.eq_nil_of_length_eq_zero h
    rfl
  | cons edges new ih =>
    obtain ⟨e, old, rfl⟩ := List.exists_cons_of_length_eq_add_one h
    have hlength : old.length = new.length := Nat.succ.inj h
    have hset : (done ++ e :: old).set done.length edges = (done ++ [edges]) ++ old := by
      simp
    rw [List.length_cons, List.range'_succ, List.zip_cons_cons]
    calc writeAll (done ++ e :: old) ((done.length, edges) :: _)
      _ = writeAll ((done ++ [edges]) ++ old)
            ((List.range' (done ++ [edges]).length old.length).zip new) := by
          rw [← hset, List.length_append]
          rfl
      _ = done ++ edges :: new := by
          rw [ih _ _ hlength, List.append_assoc, List.singleton_append]

/-- Writing to all slots in their order leaves nothing of what was in them. -/
private theorem writeAll_range_zip {new : List (List Edge)} (h : lists.length = new.length) :
    writeAll lists ((List.range new.length).zip new) = new := by
  rw [List.range_eq_range', ← h]
  exact writeAll_append_left [] lists new h

end Writes

/-! ### The tasks of a pass -/

section Tasks

variable (model : CostModel) (workers : Nat) (paths : List (List Footpath))

/-- **Slots and stops.** Together the tasks write to every slot the edges of its own stop. -/
theorem flatMap_writes_passTasks :
    (passTasks workers paths).flatMap (PassTask.writes model) =
      (List.range paths.length).zip (forwardPass model paths) := by
  rw [passTasks, List.flatMap_def, List.map_zipWith, forwardPass, List.zip_map_right,
    ← flatten_zipWith_zip_chunks (shareSize paths.length workers), List.map_flatten,
    List.map_zipWith]
  rfl

/-- In whatever order the tasks write, the slots end up as after the pass stop by stop. -/
theorem writeAll_of_perm_passTasks {ws : List (StopIndex × List Edge)}
    (h : ws.Perm ((passTasks workers paths).flatMap (PassTask.writes model))) :
    writeAll (List.replicate paths.length []) ws = forwardPass model paths := by
  have hlength : paths.length = (forwardPass model paths).length := (List.length_map _).symm
  rw [flatMap_writes_passTasks] at h
  have hslots : (ws.map Prod.fst).Nodup := by
    rw [(h.map Prod.fst).nodup_iff, List.map_fst_zip]
    · exact List.nodup_range
    · exact Nat.le_of_eq (by rw [List.length_range, hlength])
  rw [writeAll_perm h hslots, hlength]
  exact writeAll_range_zip List.length_replicate

/-- Tasks that run one after the other make all their writes. -/
private theorem foldl_run_eq (tasks : List PassTask) (lists : List (List Edge)) :
    tasks.foldl (fun lists task => task.run model lists) lists =
      writeAll lists (tasks.flatMap (PassTask.writes model)) := by
  rw [writeAll, List.foldl_flatMap]
  rfl

/-- **Sharing does not show.** The pass by several workers is the pass stop by stop. -/
theorem forwardPassShared_eq :
    forwardPassShared model workers paths = forwardPass model paths := by
  rw [forwardPassShared, foldl_run_eq]
  exact writeAll_of_perm_passTasks model workers paths (.refl _)

/-- The shares of all workers together are enough for all stops. -/
private theorem length_le_mul_shareSize (stops : Nat) {workers : Nat} (h : 0 < workers) :
    stops ≤ workers * shareSize stops workers := by
  have hdivision := Nat.div_add_mod (stops + workers - 1) workers
  have hrest := Nat.mod_lt (stops + workers - 1) h
  calc stops ≤ workers * ((stops + workers - 1) / workers) := by omega
    _ ≤ workers * shareSize stops workers := Nat.mul_le_mul_left _ (Nat.le_max_right _ _)

/-- There are no more tasks than workers. -/
theorem length_passTasks_le {workers : Nat} (h : 0 < workers) :
    (passTasks workers paths).length ≤ workers := by
  rw [passTasks, List.length_zipWith]
  exact Nat.le_trans (Nat.min_le_right _ _)
    (length_chunks_le (Nat.le_max_left _ _) (length_le_mul_shareSize _ h))

end Tasks

/-! ### The graph -/

namespace TransferGraph

variable {paths : List (List Footpath)} {model : CostModel} {settings : BuildSettings}
  {g : TransferGraph}

theorem firstStray_eq_none_iff :
    firstStray paths = none ↔ ∀ ps ∈ paths, ∀ path ∈ ps, path.target < paths.length := by
  simp only [firstStray, List.findSome?_eq_none_iff, Option.map_eq_none_iff, List.find?_eq_none,
    decide_eq_true_eq, Nat.not_le]
  constructor
  · intro h ps hps
    obtain ⟨i, hi, rfl⟩ := List.mem_iff_getElem.mp hps
    exact h (paths[i], i) (List.mk_mem_zipIdx_iff_getElem?.mpr (List.getElem?_eq_getElem hi))
  · rintro h ⟨ps, origin⟩ hmem
    exact h ps (List.mem_of_getElem? (List.mk_mem_zipIdx_iff_getElem?.mp hmem))

/-- A graph is made if all footpaths lead to stops, and then by the two passes, whatever the
settings say about workers. -/
theorem build_eq_ok_iff :
    build paths model settings = .ok g ↔
      (∀ ps ∈ paths, ∀ path ∈ ps, path.target < paths.length) ∧
        g = ⟨forwardPass model paths, reversePass (forwardPass model paths)⟩ := by
  rw [← firstStray_eq_none_iff]
  simp only [build, forwardPassShared_eq, ite_self]
  cases firstStray paths <;> simp [eq_comm]

/-- If all footpaths lead to stops, there is a graph, for any model and settings. -/
theorem exists_build (model : CostModel) (settings : BuildSettings)
    (h : ∀ ps ∈ paths, ∀ path ∈ ps, path.target < paths.length) :
    ∃ g, build paths model settings = .ok g :=
  ⟨_, build_eq_ok_iff.mpr ⟨h, rfl⟩⟩

/-- An error is the first footpath that leads nowhere, for any model and settings. -/
theorem build_eq_error_iff {e : TransferGraphError} :
    build paths model settings = .error e ↔ firstStray paths = some e := by
  rw [build]
  cases firstStray paths <;> simp

/-- **Parallel and serial builds agree.** With any settings the same graph comes out, or the same
error, as with one worker who does everything. When there are several workers, the build shares the
forward pass between them, and there are no more tasks than workers. In whatever order the tasks
run, they write to every slot exactly once, and to each the edges of its own stop; and however their
writes overtake each other, the slots end up as after the pass stop by stop. -/
theorem build_independent_of_workers (paths : List (List Footpath)) (model : CostModel) :
    (∀ settings, build paths model settings = build paths model .serial) ∧
      (∀ settings : BuildSettings, 1 < settings.effectiveWorkers paths.length →
        (∀ ps ∈ paths, ∀ path ∈ ps, path.target < paths.length) →
          let shared := forwardPassShared model (settings.effectiveWorkers paths.length) paths
          build paths model settings = .ok ⟨shared, reversePass shared⟩) ∧
      ∀ workers, 1 < workers → (passTasks workers paths).length ≤ workers ∧
        forwardPassShared model workers paths =
          (passTasks workers paths).foldl (fun lists task => task.run model lists)
            (List.replicate paths.length []) ∧
        ∀ tasks : List PassTask, tasks.Perm (passTasks workers paths) →
          ((tasks.flatMap (PassTask.writes model)).map Prod.fst).Perm (List.range paths.length) ∧
          (∀ slot edges, (slot, edges) ∈ tasks.flatMap (PassTask.writes model) →
            ∃ ps, paths[slot]? = some ps ∧ edges = edgesFrom model ps) ∧
          tasks.foldl (fun lists task => task.run model lists)
            (List.replicate paths.length []) = forwardPass model paths ∧
          ∀ ws : List (StopIndex × List Edge), ws.Perm (tasks.flatMap (PassTask.writes model)) →
            writeAll (List.replicate paths.length []) ws = forwardPass model paths := by
  refine ⟨fun settings => ?_, fun settings hworkers htargets => ?_,
    fun workers hworkers => ⟨?_, rfl, fun tasks htasks => ?_⟩⟩
  · -- neither the graph nor the error depends on the settings
    cases h : build paths model .serial with
    | ok g => rwa [build_eq_ok_iff] at h ⊢
    | error e => rwa [build_eq_error_iff] at h ⊢
  · simp only [build, firstStray_eq_none_iff.mpr htargets, if_pos hworkers]
  · exact length_passTasks_le paths (Nat.zero_lt_of_lt hworkers)
  · have hwrites := htasks.flatMap_right (PassTask.writes model)
    have hall : ∀ ws : List (StopIndex × List Edge),
        ws.Perm (tasks.flatMap (PassTask.writes model)) →
        writeAll (List.replicate paths.length []) ws = forwardPass model paths :=
      fun ws hws => writeAll_of_perm_passTasks model workers paths (hws.trans hwrites)
    refine ⟨?_, fun slot edges hwrite => ?_, ?_, hall⟩
    · -- the slots of the tasks one after the other are all slots in order
      rw [flatMap_writes_passTasks] at hwrites
      have hslots := hwrites.map Prod.fst
      rwa [List.map_fst_zip (by simp [forwardPass])] at hslots
    · rw [hwrites.mem_iff, flatMap_writes_passTasks] at hwrite
      obtain ⟨i, hi⟩ := List.mem_iff_getElem?.mp hwrite
      obtain ⟨hslot, hedges⟩ := List.getElem?_zip_eq_some.mp hi
      obtain ⟨hi, rfl⟩ := List.getElem?_eq_some_iff.mp hslot
      rw [List.getElem_range]
      rw [forwardPass, List.getElem?_map] at hedges
      obtain ⟨ps, hps, rfl⟩ := Option.map_eq_some_iff.mp hedges
      exact ⟨ps, hps, rfl⟩
    · rw [foldl_run_eq]
      exact hall _ (.refl _)

/-- Five stops and three workers: the last task has one stop only, and it is the first to run. -/
theorem build_independent_of_workers_five :
    let model : CostModel := fun path _ => some ⟨60, path.target⟩
    let paths : List (List Footpath) :=
      [[.flat 1 80], [.flat 4 70, .flat 2 80], [], [.flat 0 50], [.flat 3 60]]
    let tasks := (passTasks 3 paths).reverse
    let shared := forwardPassShared model 3 paths
    1 < 3 ∧ tasks.Perm (passTasks 3 paths) ∧ tasks.map PassTask.slots = [[4], [2, 3], [0, 1]] ∧
      build paths model ⟨true, 3⟩ = .ok ⟨shared, reversePass shared⟩ ∧
      tasks.foldl (fun lists task => task.run model lists) [[], [], [], [], []] =
        [[⟨1, 60, 1, false⟩], [⟨2, 60, 2, false⟩, ⟨4, 60, 4, false⟩], [], [⟨0, 60, 0, false⟩],
          [⟨3, 60, 3, false⟩]] := by
  intro model paths tasks shared
  have hperm : tasks.Perm (passTasks 3 paths) := List.reverse_perm _
  obtain ⟨-, hbuild, hshares⟩ := build_independent_of_workers paths model
  obtain ⟨-, -, hrun⟩ := hshares 3 (by decide)
  refine ⟨by decide, hperm, ?_, hbuild ⟨true, 3⟩ (by decide) (by decide), (hrun tasks hperm).2.2.1⟩
  simp [tasks, paths, passTasks, shareSize, chunks_cons, List.range_succ]

end TransferGraph

end Interchange
