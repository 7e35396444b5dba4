import Interchange.Proofs.Timetable.Target

/-!
# How trips are edited

As far as keys and records of trips go, a mutation does one of three things: nothing, a change to a
trip in place, or a new trip under a key that was not there. `Timetable.Edit` lists them together
with the key that is new, and `Timetable.edit_apply` says that there are no others. What does not
depend on calls and states is proved from this list.
-/

namespace Interchange

namespace Timetable

variable {t t' : Timetable} {m : Mutation} {key k : ScopedId}

/-! ### The key that is new -/

/-- The key of the trip that a mutation adds. -/
def added? (t : Timetable) (m : Mutation) : Option ScopedId :=
  match m, (t.apply m).2 with
  | .addTrip trip _, .ok _ => some trip.id
  | _, _ => none

private theorem added?_of_error {e : UpdateError} (h : (t.apply m).2 = .error e) :
    t.added? m = none := by
  cases m <;> simp only [added?, h]

theorem added?_of_isAddition (h : m.isAddition = false) : t.added? m = none := by
  cases m <;> first | rfl | cases h

theorem added?_of_ok {trip : Trip} {calls : List Call} {warnings : List Warning}
    (h : (t.apply (.addTrip trip calls)).2 = .ok warnings) :
    t.added? (.addTrip trip calls) = some trip.id := by
  simp only [added?, h]

/-! ### Edits -/

/-- **Edits.** The ways to edit trips, with the key that is new if there is one. -/
inductive Edit (t : Timetable) : Timetable → Option ScopedId → Prop
  | nothing : Edit t t none
  /-- A trip is changed in place, and stays the same trip -/
  | inPlace {key : ScopedId} {f : LiveTrip → LiveTrip}
      (record : ∀ live, (f live).trip = live.trip) : Edit t (t.modifyTrip key f) none
  /-- A trip is put in under a key that was not there -/
  | put {live : LiveTrip} (fresh : t.trip? live.trip.id = none) :
      Edit t (t.putTrip live) (some live.trip.id)

/-- **One mutation** makes one of the edits. -/
theorem edit_apply (t : Timetable) (m : Mutation) : t.Edit (t.apply m).1 (t.added? m) := by
  rcases apply_cases t m with ⟨e, hm⟩ | ⟨t', warnings, hm, hs⟩
  · rw [added?_of_error (congrArg Prod.snd hm), hm]
    exact .nothing
  have hok := congrArg Prod.snd hm
  rw [hm]
  cases hs with
  | withdrawn hkind =>
    rw [added?_of_isAddition (Mutation.isAddition_of_withdrawal? hkind)]
    exact .inPlace fun _ => rfl
  | alreadyWithdrawn hkind =>
    rw [added?_of_isAddition (Mutation.isAddition_of_withdrawal? hkind)]
    exact .nothing
  | rerouted => exact .inPlace fun _ => rfl
  | added hfresh =>
    rw [added?_of_ok hok]
    exact .put hfresh

/-- Each of the four effects is an edit, in place or of a new trip. -/
theorem Succeeds.edit {warnings : List Warning} (hs : t.Succeeds m t' warnings) :
    t.Edit t' (t.added? m) := by
  have hedit := edit_apply t m
  rwa [apply_of_succeeds hs] at hedit

namespace Edit

variable {new : Option ScopedId}

theorem fresh (h : t.Edit t' (some key)) : t.trip? key = none := by
  cases h with
  | put hfresh => exact hfresh

/-- No key is lost, and there is no other key that is new. -/
theorem trip?_eq_none_iff (h : t.Edit t' new) (k : ScopedId) :
    t'.trip? k = none ↔ t.trip? k = none ∧ new ≠ some k := by
  cases h with
  | nothing => simp
  | inPlace =>
    rw [trip?_modifyTrip]
    split_ifs <;> simp
  | @put live =>
    rw [trip?_putTrip]
    split_ifs with hk
    · simp [hk]
    · simp [Ne.symm hk]

/-- A trip that is there stays the same trip. -/
theorem exists_trip? (h : t.Edit t' new) {live : LiveTrip} (hlive : t.trip? k = some live) :
    ∃ live', t'.trip? k = some live' ∧ live'.trip = live.trip := by
  cases h with
  | nothing => exact ⟨live, hlive, rfl⟩
  | @inPlace key f hrecord =>
    rw [trip?_modifyTrip, hlive]
    split_ifs
    · exact ⟨f live, rfl, hrecord live⟩
    · exact ⟨live, rfl, rfl⟩
  | @put new hfresh =>
    have hk : k ≠ new.trip.id := by
      rintro rfl
      rw [hfresh] at hlive
      cases hlive
    exact ⟨live, by rw [trip?_putTrip, if_neg hk, hlive], rfl⟩

theorem size_eq (h : t.Edit t' new) :
    t'.trips.size = t.trips.size + if new.isSome then 1 else 0 := by
  cases h with
  | nothing => rfl
  | inPlace => exact SortedMap.size_modify ..
  | put hfresh => exact SortedMap.size_insert_of_none hfresh _

end Edit

end Timetable

end Interchange
