import Interchange.Proofs.Timetable.Batches
import Interchange.Proofs.Timetable.Steps

/-!
# Moments of change

The moment of a timetable is meant to be that of the last batch which changed a trip
(`Timetable.NotesChanges`), but a batch notes its moment if any of its mutations succeeds. Not every
success is a change: the trip may be as the mutation would leave it already (`Step.Idle`), and those
are the only successes that change nothing (`Step.changes_iff`). So the moment is wrong exactly if
all successes of a batch are of this kind (`Timetable.moments_of_change`), which happens when a
cancellation or an update of times is sent again (`Timetable.not_notesChanges`).
-/

namespace Interchange

/-! ### What is there already -/

/-- **Fulfilled mutations.** The live trip is as the mutation would leave it. -/
def Mutation.FulfilledBy (live : LiveTrip) : Mutation → Prop
  | .cancel _ => live.state = .canceled ∨ live.state = .deleted
  | .delete _ => live.state = .deleted
  | .reroute _ calls => live.calls = calls ∧ live.state = .updated
  | .addTrip _ _ => False

private theorem Mutation.fulfilledBy_iff_of_withdrawal? {m : Mutation} {state : TripState}
    {live : LiveTrip} (h : m.withdrawal? = some state) :
    m.FulfilledBy live ↔ live.state = state ∨ live.state = .deleted := by
  cases m with
  | cancel =>
    obtain rfl := Option.some.inj h
    exact Iff.rfl
  | delete =>
    obtain rfl := Option.some.inj h
    exact (or_self_iff).symm
  | reroute => cases h
  | addTrip => cases h

/-- Rerouted to its own calls, a trip stays as it is only if it counts as updated: its stops are
the same, so that is the state it gets. -/
private theorem LiveTrip.rerouted_eq_self_iff {live : LiveTrip} {calls : List Call} :
    { live with
      calls
      state := if live.stops = calls.map Call.stop then .updated else .modified } = live ↔
      live.calls = calls ∧ live.state = .updated := by
  constructor
  · intro h
    have hcalls : calls = live.calls := congrArg LiveTrip.calls h
    have hstate := congrArg LiveTrip.state h
    rw [hcalls] at hstate
    exact ⟨hcalls.symm, hstate.symm.trans (if_pos rfl)⟩
  · rintro ⟨rfl, hstate⟩
    have hsame : live.stops = live.calls.map Call.stop := rfl
    rw [if_pos hsame, ← hstate]

namespace Timetable

variable {t : Timetable} {key : ScopedId} {live : LiveTrip}

private theorem trips_modifyTrip_eq_iff {f : LiveTrip → LiveTrip} (h : t.trip? key = some live) :
    (t.modifyTrip key f).trips = t.trips ↔ f live = live := by
  constructor
  · intro heq
    have htrip : (t.modifyTrip key f).trip? key = t.trip? key :=
      congrArg (SortedMap.find? · key) heq
    rw [trip?_modifyTrip, if_pos rfl, h, Option.map_some] at htrip
    exact Option.some.inj htrip
  · intro hsame
    refine SortedMap.ext_find? fun k => (trip?_modifyTrip t key k f).trans ?_
    split_ifs with hk
    · rw [hk, h, Option.map_some, hsame]
      exact h.symm
    · rfl

private theorem trips_putTrip_ne (h : t.trip? live.trip.id = none) :
    (t.putTrip live).trips ≠ t.trips := by
  intro heq
  have htrip : (t.putTrip live).trip? live.trip.id = t.trip? live.trip.id :=
    congrArg (SortedMap.find? · live.trip.id) heq
  rw [trip?_putTrip, if_pos rfl, h] at htrip
  cases htrip

end Timetable

namespace Step

/-! ### Changes -/

/-- The step changes a trip or adds one. -/
def Changes (s : Step) : Prop := s.after.trips ≠ s.before.trips

/-- **Idle steps.** The mutation asks for what is there already. -/
def Idle (s : Step) : Prop :=
  ∃ key live, s.before.resolve s.mutation.trip = some key ∧ s.before.trip? key = some live ∧
    s.mutation.FulfilledBy live

variable {s : Step}

/-- What a step is idle about is the trip that its mutation means. -/
private theorem idle_iff {key : ScopedId} {live : LiveTrip}
    (hkey : s.before.resolve s.mutation.trip = some key) (hlive : s.before.trip? key = some live) :
    s.Idle ↔ s.mutation.FulfilledBy live := by
  constructor
  · rintro ⟨key', live', hkey', hlive', hfulfilled⟩
    obtain rfl := Option.some.inj (hkey'.symm.trans hkey)
    obtain rfl := Option.some.inj (hlive'.symm.trans hlive)
    exact hfulfilled
  · exact fun hfulfilled => ⟨key, live, hkey, hlive, hfulfilled⟩

/-- A success changes the trips unless it is idle. -/
private theorem changes_iff_of_succeeds {t t' : Timetable} {m : Mutation} {warnings : List Warning}
    (hs : t.Succeeds m t' warnings) : t'.trips ≠ t.trips ↔ ¬ Idle ⟨t, m⟩ := by
  cases hs with
  | withdrawn hkind hkey hlive hfresh =>
    rw [idle_iff (s := ⟨t, m⟩) hkey hlive, Mutation.fulfilledBy_iff_of_withdrawal? hkind]
    refine iff_of_true (fun heq => ?_) hfresh
    have hsame := (Timetable.trips_modifyTrip_eq_iff hlive).mp heq
    exact hfresh (.inl (congrArg LiveTrip.state hsame).symm)
  | alreadyWithdrawn hkind hkey hlive hold =>
    rw [idle_iff (s := ⟨t, m⟩) hkey hlive, Mutation.fulfilledBy_iff_of_withdrawal? hkind]
    exact iff_of_false (fun hne => hne rfl) (fun hnot => hnot hold)
  | @rerouted id key calls live hkey hlive =>
    rw [idle_iff (s := ⟨t, .reroute id calls⟩) hkey hlive]
    exact not_congr
      ((Timetable.trips_modifyTrip_eq_iff hlive).trans LiveTrip.rerouted_eq_self_iff)
  | added hfresh =>
    -- nothing fulfils an addition beforehand
    refine iff_of_true (Timetable.trips_putTrip_ne hfresh) ?_
    rintro ⟨_, _, _, _, hfulfilled⟩
    exact hfulfilled

/-- **Changes.** A step changes something exactly if its mutation succeeds and asks for something
that is not there already. -/
theorem changes_iff (s : Step) : s.Changes ↔ s.outcome.isOk = true ∧ ¬ s.Idle := by
  obtain ⟨t, m⟩ := s
  rcases Timetable.apply_cases t m with ⟨e, hm⟩ | ⟨t', warnings, hm, hs⟩
  · have hafter : after ⟨t, m⟩ = t := congrArg Prod.fst hm
    have houtcome : outcome ⟨t, m⟩ = .error e := congrArg Prod.snd hm
    rw [Changes, hafter, houtcome]
    exact iff_of_false (fun hne => hne rfl) fun hok => Bool.false_ne_true hok.1
  · have hafter : after ⟨t, m⟩ = t' := congrArg Prod.fst hm
    have houtcome : outcome ⟨t, m⟩ = .ok warnings := congrArg Prod.snd hm
    rw [Changes, hafter, houtcome, changes_iff_of_succeeds hs]
    exact (and_iff_right rfl).symm

end Step

namespace Timetable

/-! ### Moments -/

theorem outcomes_steps (t : Timetable) (ms : List Mutation) :
    (t.steps ms).map Step.outcome = (t.applyAll ms).2 := by
  have hzip := congrArg (List.map Prod.snd) (map_steps t ms)
  rwa [List.map_map, List.map_snd_zip (Nat.le_of_eq (length_applyAll t ms))] at hzip

/-- A batch notes its moment if one of its steps succeeds. -/
private theorem updatedAt_applyBatch (t : Timetable) (batch : List Mutation) (moment : Int) :
    (t.applyBatch batch moment).1.updatedAt =
      if ∃ s ∈ t.steps batch, s.outcome.isOk = true then some moment else t.updatedAt := by
  have hsuccess : 0 < (BatchResult.ofOutcomes (t.applyAll batch).2).successful ↔
      ∃ s ∈ t.steps batch, s.outcome.isOk = true := by
    rw [BatchResult.successful_ofOutcomes, ← outcomes_steps, List.length_pos_iff_exists_mem]
    simp
  rw [applyBatch_eq, updatedAt_note]
  exact if_congr hsuccess rfl rfl

/-- **Moments of change.** After the batch the moment is that of the batch if one of its steps
changes a trip or adds one, and otherwise what it was. -/
structure NotesChanges (t : Timetable) (batch : List Mutation) (moment : Int) : Prop where
  changed : (∃ s ∈ t.steps batch, s.Changes) →
    (t.applyBatch batch moment).1.updatedAt = some moment
  unchanged : (¬ ∃ s ∈ t.steps batch, s.Changes) →
    (t.applyBatch batch moment).1.updatedAt = t.updatedAt

/-- **When moments are right.** A step changes something exactly if its mutation succeeds and is not
idle. A batch notes its moment exactly if one of its steps succeeds, and this is right exactly if
one of them changes something, or none succeeds, or the moment is the one that was noted before. -/
theorem moments_of_change (t : Timetable) (batch : List Mutation) (moment : Int) :
    (∀ s : Step, s.Changes ↔ s.outcome.isOk = true ∧ ¬ s.Idle) ∧
      (t.applyBatch batch moment).1.updatedAt =
        (if ∃ s ∈ t.steps batch, s.outcome.isOk = true then some moment else t.updatedAt) ∧
      (t.NotesChanges batch moment ↔ (∃ s ∈ t.steps batch, s.Changes) ∨
        (∀ s ∈ t.steps batch, s.outcome.isOk = false) ∨ t.updatedAt = some moment) := by
  have hmoment := updatedAt_applyBatch t batch moment
  refine ⟨Step.changes_iff, hmoment, ?_⟩
  constructor
  · intro h
    by_cases hchange : ∃ s ∈ t.steps batch, s.Changes
    · exact .inl hchange
    by_cases hsuccess : ∃ s ∈ t.steps batch, s.outcome.isOk = true
    · -- the batch notes its moment, which was to stay as it was
      rw [if_pos hsuccess] at hmoment
      exact .inr (.inr ((h.unchanged hchange).symm.trans hmoment))
    · exact .inr (.inl fun s hs => Bool.eq_false_iff.mpr fun hok => hsuccess ⟨s, hs, hok⟩)
  · -- what changes something succeeds, so a batch that changes something notes its moment
    rintro (⟨s, hs, hchange⟩ | hfail | hsame)
    · rw [if_pos ⟨s, hs, (s.changes_iff.mp hchange).1⟩] at hmoment
      exact ⟨fun _ => hmoment, fun hnone => absurd ⟨s, hs, hchange⟩ hnone⟩
    · have hnone : ¬ ∃ s ∈ t.steps batch, s.outcome.isOk = true := by
        rintro ⟨s, hs, hok⟩
        rw [hfail s hs] at hok
        cases hok
      rw [if_neg hnone] at hmoment
      refine ⟨fun ⟨s, hs, hchange⟩ => ?_, fun _ => hmoment⟩
      exact absurd ⟨s, hs, (s.changes_iff.mp hchange).1⟩ hnone
    · rw [hsame, ite_self] at hmoment
      exact ⟨fun _ => hmoment, fun _ => hmoment.trans hsame.symm⟩

/-- A cancellation that is sent again moves the moment, and so does an update of times that is sent
again, although neither changes anything. -/
theorem not_notesChanges :
    let night : Trip := ⟨⟨"F", "N", by decide⟩, ⟨"F", "R", by decide⟩, none, none⟩
    let calls : List Call := [⟨0, 1, .hms 8 0 0, .hms 8 0 0⟩, ⟨1, 2, .hms 8 5 0, .hms 8 5 0⟩]
    let late : List Call := [⟨0, 1, .hms 8 1 0, .hms 8 1 0⟩, ⟨1, 2, .hms 8 6 0, .hms 8 6 0⟩]
    let after (m : Mutation) := ((seed 2 [⟨night, calls⟩]).applyBatch [m] 100).1
    (¬ (after (.cancel night.id)).NotesChanges [.cancel night.id] 160) ∧
      ¬ (after (.reroute night.id late)).NotesChanges [.reroute night.id late] 160 := by
  intro night calls late after
  have hcancel : ¬ ∃ s ∈ (after (.cancel night.id)).steps [.cancel night.id], s.Changes := by
    simp only [Step.Changes]
    decide
  have hreroute : ¬ ∃ s ∈ (after (.reroute night.id late)).steps [.reroute night.id late],
      s.Changes := by
    simp only [Step.Changes]
    decide
  constructor
  · intro h
    have hmoment := h.unchanged hcancel
    revert hmoment
    decide
  · intro h
    have hmoment := h.unchanged hreroute
    revert hmoment
    decide

end Timetable

end Interchange
