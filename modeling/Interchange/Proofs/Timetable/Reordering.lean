import Interchange.Proofs.Timetable.Target
import Interchange.Proofs.Update.Outcome

/-!
# Batches in another order

Two mutations are *apart* if they are not about the same trip and neither names a trip that the
other one adds (`Timetable.Apart`). Of two such mutations neither changes the target of the other
or what the other finds there. A batch whose mutations are pairwise apart therefore does what each
of them does by itself on the timetable before the batch: each has the same outcome
(`Timetable.Independent.outcomes_applyAll`) and leaves the same trip
(`Timetable.Independent.trip?_applyAll_of_target`). None of this mentions an order, so the batch
can be put into any order (`Timetable.applyBatch_perm`).
-/

namespace Interchange

/-- The mutation does not name the id of an added trip, nor mean that trip by its realtime id. -/
structure Mutation.Spares (m : Mutation) (trip : Trip) : Prop where
  id : m.trip ≠ trip.id
  realtimeId : m.isAddition = false →
    ¬ (m.trip.feed = trip.id.feed ∧ trip.realtimeTripId = some m.trip.localId)

namespace Timetable

variable {t u : Timetable} {m m' : Mutation} {batch batch' : List Mutation} {k : ScopedId}

/-- A timetable is its trips, its number of stops and the moment of its last batch. -/
theorem ext_trip? (htrips : ∀ k, t.trip? k = u.trip? k) (hstops : t.stopCount = u.stopCount)
    (hupdated : t.updatedAt = u.updatedAt) : t = u := by
  cases t
  cases u
  congr
  exact SortedMap.ext_find? htrips

/-! ### Mutations that are apart -/

/-- **Apart.** Mutations of trips that are there are about different trips, and a trip that one
mutation adds is spared by the other. -/
structure Apart (t : Timetable) (m m' : Mutation) : Prop where
  targets : m.isAddition = false → m'.isAddition = false →
    ∀ key, t.resolve m.trip = some key → t.resolve m'.trip ≠ some key
  spares : ∀ trip calls, m = .addTrip trip calls → m'.Spares trip
  spared : ∀ trip calls, m' = .addTrip trip calls → m.Spares trip

namespace Apart

theorem symm (h : t.Apart m m') : t.Apart m' m where
  targets hm' hm key hkey' hkey := h.targets hm hm' key hkey hkey'
  spares := h.spared
  spared := h.spares

/-- Mutations of trips that are there are apart if they mean different trips. -/
theorem of_resolve_ne (hm : m.isAddition = false) (hm' : m'.isAddition = false)
    (h : t.resolve m.trip ≠ t.resolve m'.trip) : t.Apart m m' where
  targets _ _ key hkey hkey' := h (hkey.trans hkey'.symm)
  spares := by
    rintro trip calls rfl
    cases hm
  spared := by
    rintro trip calls rfl
    cases hm'

/-- A mutation of a trip that is there is apart from an addition that it spares. -/
theorem of_spares {trip : Trip} {calls : List Call} (hm : m.isAddition = false)
    (h : m.Spares trip) : t.Apart m (.addTrip trip calls) where
  targets _ hadd := by cases hadd
  spares := by
    rintro trip' calls' rfl
    cases hm
  spared := by
    rintro trip' calls' heq
    obtain ⟨rfl, rfl⟩ := Mutation.addTrip.inj heq
    exact h

/-- What a mutation of a trip that is there means by an id stays the same. -/
private theorem resolve_apply (h : t.Apart m m') (hm' : m'.isAddition = false) :
    (t.apply m).1.resolve m'.trip = t.resolve m'.trip := by
  rcases apply_cases t m with ⟨e, hm⟩ | ⟨t', warnings, hm, hs⟩
  · rw [hm]
  · rw [hm]
    cases hs with
    | withdrawn =>
      refine resolve_modifyTrip ?_ _
      exact fun _ => rfl
    | alreadyWithdrawn => rfl
    | rerouted =>
      refine resolve_modifyTrip ?_ _
      exact fun _ => rfl
    | @added trip calls hfresh =>
      have hspares := h.spares trip calls rfl
      exact resolve_putTrip hfresh hspares.id fun ⟨hfeed, hrealtime⟩ =>
        hspares.realtimeId hm' ⟨hfeed.symm, hrealtime⟩

/-- The id of a trip that is to be added is taken after a mutation if it was before. -/
private theorem trip?_apply_eq_none_iff {trip : Trip} (h : m.Spares trip) :
    (t.apply m).1.trip? trip.id = none ↔ t.trip? trip.id = none := by
  rcases apply_cases t m with ⟨e, hm⟩ | ⟨t', warnings, hm, hs⟩
  · rw [hm]
  · rw [hm]
    cases hs with
    | withdrawn =>
      rw [trip?_modifyTrip]
      split_ifs <;> simp
    | alreadyWithdrawn => rfl
    | rerouted =>
      rw [trip?_modifyTrip]
      split_ifs <;> simp
    | added =>
      rw [trip?_putTrip]
      exact iff_of_eq (congrArg (· = none) (if_neg (Ne.symm h.id)))

/-- A mutation does not move the target of another one that is apart from it. -/
theorem target?_apply (h : t.Apart m m') : (t.apply m).1.target? m' = t.target? m' := by
  cases m' with
  | addTrip trip calls =>
    have hnone := trip?_apply_eq_none_iff (t := t) (h.spared trip calls rfl)
    simp only [target?, hnone]
  | cancel | delete | reroute => exact h.resolve_apply rfl

/-- An added trip is not there, while any other target is. -/
private theorem target?_ne_of_addTrip {trip : Trip} {calls : List Call}
    (h : t.Apart (.addTrip trip calls) m') (hk : t.target? (.addTrip trip calls) = some k) :
    t.target? m' ≠ some k := by
  obtain ⟨hnone, rfl⟩ := target?_addTrip_eq_some hk
  intro hk'
  cases m' with
  | addTrip trip' calls' =>
    exact (h.spares trip calls rfl).id (target?_addTrip_eq_some hk').2
  | cancel | delete | reroute =>
    obtain ⟨live, hlive⟩ := exists_trip?_of_resolve hk'
    rw [hnone] at hlive
    cases hlive

/-- Mutations that are apart have different targets. -/
private theorem target?_ne (h : t.Apart m m') (hk : t.target? m = some k) :
    t.target? m' ≠ some k := by
  cases hm : m.isAddition with
  | true =>
    cases m with
    | addTrip trip calls => exact h.target?_ne_of_addTrip hk
    | cancel | delete | reroute => cases hm
  | false =>
    cases hm' : m'.isAddition with
    | true =>
      cases m' with
      | addTrip trip calls => exact fun hk' => h.symm.target?_ne_of_addTrip hk' hk
      | cancel | delete | reroute => cases hm'
    | false =>
      rw [target?_eq_resolve hm] at hk
      rw [target?_eq_resolve hm']
      exact h.targets hm hm' k hk

/-- Of two mutations that are apart the second does what it does without the first. -/
theorem apply_apply (h : t.Apart m m') :
    ((t.apply m).1.apply m').2 = (t.apply m').2 ∧
      ∀ k, t.target? m' = some k →
        ((t.apply m).1.apply m').1.trip? k = (t.apply m').1.trip? k := by
  have htarget := h.target?_apply
  rw [← htarget]
  refine apply_local (stopCount_apply t m) htarget fun k hk => trip?_apply_of_ne ?_
  rw [htarget] at hk
  exact h.symm.target?_ne hk

end Apart

/-! ### Independent batches -/

/-- Any two mutations of the batch are apart. -/
def Independent (t : Timetable) (batch : List Mutation) : Prop := batch.Pairwise t.Apart

namespace Independent

variable {ms : List Mutation}

theorem of_perm (h : t.Independent batch) (hperm : batch'.Perm batch) : t.Independent batch' :=
  (hperm.pairwise_iff Apart.symm).mpr h

/-- The first mutation leaves the others independent. -/
theorem tail (h : t.Independent (m :: ms)) : (t.apply m).1.Independent ms := by
  obtain ⟨hfirst, hrest⟩ := List.pairwise_cons.mp h
  -- only the targets depend on the timetable, and the first mutation does not move them
  refine hrest.imp_of_mem fun {a b} ha hb hab => ⟨fun hadda haddb => ?_, hab.spares, hab.spared⟩
  rw [(hfirst a ha).resolve_apply hadda, (hfirst b hb).resolve_apply haddb]
  exact hab.targets hadda haddb

/-- Each mutation has the outcome that it has by itself. -/
theorem outcomes_applyAll (h : t.Independent batch) :
    (t.applyAll batch).2 = batch.map fun m => (t.apply m).2 := by
  induction batch generalizing t with
  | nil => rfl
  | cons m ms ih =>
    have hms : ms.map (fun m' => ((t.apply m).1.apply m').2) = ms.map fun m' => (t.apply m').2 :=
      List.map_congr_left fun m' hm' => ((List.pairwise_cons.mp h).1 m' hm').apply_apply.1
    rw [applyAll_cons, ih h.tail, hms, List.map_cons]

/-- A trip that no mutation is about stays as it is. -/
private theorem trip?_applyAll_of_ne (h : t.Independent batch)
    (hk : ∀ m ∈ batch, t.target? m ≠ some k) : (t.applyAll batch).1.trip? k = t.trip? k := by
  induction batch generalizing t with
  | nil => rfl
  | cons m ms ih =>
    obtain ⟨hm, hms⟩ := List.forall_mem_cons.mp hk
    -- the first mutation does not move the targets of the others
    have hms' : ∀ m' ∈ ms, (t.apply m).1.target? m' ≠ some k := by
      intro m' hm'
      rw [((List.pairwise_cons.mp h).1 m' hm').target?_apply]
      exact hms m' hm'
    exact (ih h.tail hms').trans (trip?_apply_of_ne hm)

/-- A trip that a mutation is about is left as that mutation leaves it by itself. -/
theorem trip?_applyAll_of_target (h : t.Independent batch) (hm : m ∈ batch)
    (hk : t.target? m = some k) : (t.applyAll batch).1.trip? k = (t.apply m).1.trip? k := by
  induction batch generalizing t with
  | nil => cases hm
  | cons m' ms ih =>
    obtain ⟨hfirst, -⟩ := List.pairwise_cons.mp h
    rcases List.mem_cons.mp hm with rfl | hm
    · -- the mutations behind it have other targets
      refine h.tail.trip?_applyAll_of_ne fun m' hm' => ?_
      rw [(hfirst m' hm').target?_apply]
      exact (hfirst m' hm').target?_ne hk
    · have hapart := hfirst m hm
      have hk' : (t.apply m').1.target? m = some k := hapart.target?_apply.trans hk
      exact (ih h.tail hm hk').trans (hapart.apply_apply.2 k hk)

/-- The timetable after the batch does not depend on the order. -/
theorem applyAll_perm (h : t.Independent batch) (hperm : batch'.Perm batch) :
    (t.applyAll batch').1 = (t.applyAll batch).1 := by
  have h' := h.of_perm hperm
  -- a trip is the target of a mutation in either order or in none
  refine ext_trip? (fun k => ?_) ?_ ?_
  · by_cases hk : ∃ m ∈ batch, t.target? m = some k
    · obtain ⟨m, hm, hk⟩ := hk
      rw [h.trip?_applyAll_of_target hm hk,
        h'.trip?_applyAll_of_target (hperm.mem_iff.mpr hm) hk]
    · have hne : ∀ m ∈ batch, t.target? m ≠ some k := fun m hm heq => hk ⟨m, hm, heq⟩
      rw [h.trip?_applyAll_of_ne hne,
        h'.trip?_applyAll_of_ne fun m hm => hne m (hperm.mem_iff.mp hm)]
  · rw [stopCount_applyAll, stopCount_applyAll]
  · rw [updatedAt_applyAll, updatedAt_applyAll]

end Independent

/-- **Reordering.** A batch does what its mutations do one after the other, and notes the moment if
one of them succeeds. An independent batch can be put into any order: it leaves the same timetable,
each mutation has the outcome that it has by itself in either order, and the numbers of
successes, of failures and of failures for each reason are the same. -/
theorem applyBatch_perm (h : t.Independent batch) (hperm : batch'.Perm batch) (moment : Int) :
    (∀ ms, t.applyBatch ms moment =
        ((t.applyAll ms).1.note
          (if 0 < (BatchResult.ofOutcomes (t.applyAll ms).2).successful then some moment
            else t.updatedAt),
          BatchResult.ofOutcomes (t.applyAll ms).2)) ∧
      (t.applyBatch batch' moment).1 = (t.applyBatch batch moment).1 ∧
      (t.applyAll batch).2 = batch.map (fun m => (t.apply m).2) ∧
      (t.applyAll batch').2 = batch'.map (fun m => (t.apply m).2) ∧
      (t.applyBatch batch' moment).2.successful = (t.applyBatch batch moment).2.successful ∧
      (t.applyBatch batch' moment).2.failed = (t.applyBatch batch moment).2.failed ∧
      ∀ reason, (t.applyBatch batch' moment).2.failureCount reason =
        (t.applyBatch batch moment).2.failureCount reason := by
  have houtcomes := h.outcomes_applyAll
  have houtcomes' := (h.of_perm hperm).outcomes_applyAll
  have hsame : (t.applyAll batch').2.Perm (t.applyAll batch).2 := by
    rw [houtcomes, houtcomes']
    exact hperm.map _
  have hcounts := BatchResult.counts_of_perm hsame
  refine ⟨fun ms => applyBatch_eq t ms moment, ?_, houtcomes, houtcomes', hcounts⟩
  simp only [applyBatch, hcounts.1, h.applyAll_perm hperm]

/-- A trip can be cancelled by its realtime id before or after another one is rerouted and a third
one is added. -/
theorem applyBatch_perm_realtime_id :
    let night : Trip := ⟨⟨"F", "N", by decide⟩, ⟨"F", "R", by decide⟩, some "rt", none⟩
    let day : Trip := ⟨⟨"F", "D", by decide⟩, ⟨"F", "R", by decide⟩, none, none⟩
    let shuttle : Trip := ⟨⟨"F", "S", by decide⟩, ⟨"F", "R", by decide⟩, some "s1", none⟩
    let calls (a b : StopIndex) : List Call :=
      [⟨a, 1, .hms 8 0 0, .hms 8 0 0⟩, ⟨b, 2, .hms 8 5 0, .hms 8 5 0⟩]
    let t := seed 3 [⟨night, calls 0 1⟩, ⟨day, calls 0 1⟩]
    let cancel := Mutation.cancel ⟨"F", "rt", by decide⟩
    let reroute := Mutation.reroute day.id (calls 0 2)
    let add := Mutation.addTrip shuttle (calls 1 2)
    t.Independent [cancel, reroute, add] ∧
      (t.applyBatch [add, cancel, reroute] 7).1 = (t.applyBatch [cancel, reroute, add] 7).1 ∧
      (t.applyBatch [add, cancel, reroute] 7).2.successful = 3 := by
  intro night day shuttle calls t cancel reroute add
  have hcancel : cancel.Spares shuttle := ⟨by decide, fun _ => by decide⟩
  have hreroute : reroute.Spares shuttle := ⟨by decide, fun _ => by decide⟩
  have hapart : t.Apart cancel reroute := .of_resolve_ne rfl rfl (by decide)
  have h : t.Independent [cancel, reroute, add] := by
    refine .cons ?_ (.cons ?_ (List.pairwise_singleton _ _))
    · simp only [List.forall_mem_cons, List.not_mem_nil, false_imp_iff, implies_true, and_true]
      exact ⟨hapart, .of_spares rfl hcancel⟩
    · rw [List.forall_mem_singleton]
      exact .of_spares rfl hreroute
  have hperm : [add, cancel, reroute].Perm [cancel, reroute, add] :=
    (List.perm_append_singleton add [cancel, reroute]).symm
  obtain ⟨-, hsame, -, -, hsuccessful, -⟩ := applyBatch_perm h hperm 7
  exact ⟨h, hsame, hsuccessful.trans (by decide)⟩

end Timetable

end Interchange
