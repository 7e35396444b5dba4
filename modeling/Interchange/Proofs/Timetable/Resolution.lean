import Interchange.Proofs.Timetable.Mutation

/-!
# Which trip an id means

An id means the trip under it. If there is none, it means the trip with the least key among those
that are known by it, the trips of its feed that have it as their realtime id
(`Timetable.resolve_eq_some_iff`). The answer depends on nothing but which trips are there and which
of them are known by the id, so it stays the same when trips are changed in place and when trips are
added that have nothing to do with the id.
-/

namespace Interchange

namespace Timetable

variable {t t' : Timetable} {id key : ScopedId}

/-- Realtime feeds know the trip under a key by the id. -/
def KnownBy (t : Timetable) (id key : ScopedId) : Prop :=
  ∃ live, t.trip? key = some live ∧ key.feed = id.feed ∧
    live.trip.realtimeTripId = some id.localId

/-- The search for a trip stops at one that realtime feeds know by the id. -/
private theorem answersTo_iff {live : LiveTrip} :
    answersTo id (key, live) = true ↔
      key.feed = id.feed ∧ live.trip.realtimeTripId = some id.localId := by
  rw [answersTo, Bool.and_eq_true, decide_eq_true_iff, decide_eq_true_iff]

/-- **Resolution.** The trip with the id, or else the first one that is known by it. -/
theorem resolve_eq_some_iff :
    t.resolve id = some key ↔
      (∃ live, t.trip? id = some live) ∧ key = id ∨
        t.trip? id = none ∧ t.KnownBy id key ∧
          ∀ k, t.KnownBy id k → k ≠ key → compare key k = .lt := by
  rw [resolve]
  by_cases hid : t.trips.contains id = true
  · obtain ⟨live, hlive⟩ := Option.isSome_iff_exists.mp hid
    have htrip : t.trip? id = some live := hlive
    simp [hid, htrip, eq_comm]
  · have hnone : t.trip? id = none := contains_eq_false_iff.mp (Bool.eq_false_iff.mpr hid)
    rw [if_neg hid, Option.map_eq_some_iff]
    constructor
    · -- entries ascend, so the first that answers has the least key
      rintro ⟨⟨k, live⟩, hfind, rfl⟩
      obtain ⟨hlive, hknown, hleast⟩ := SortedMap.find?_entries_eq_some_iff.mp hfind
      refine .inr ⟨hnone, ⟨live, hlive, answersTo_iff.mp hknown⟩, ?_⟩
      rintro k' ⟨live', hlive', hknown'⟩
      exact hleast k' live' hlive' (answersTo_iff.mpr hknown')
    · rintro (⟨⟨live, hlive⟩, -⟩ | ⟨-, ⟨live, hlive, hknown⟩, hleast⟩)
      · rw [hnone] at hlive
        cases hlive
      · exact ⟨(key, live), SortedMap.find?_entries_eq_some_iff.mpr
          ⟨hlive, answersTo_iff.mpr hknown, fun k' live' hlive' hknown' =>
            hleast k' ⟨live', hlive', answersTo_iff.mp hknown'⟩⟩, rfl⟩

/-- A key means the trip under it, whatever the realtime ids of other trips are. -/
theorem resolve_of_trip? {live : LiveTrip} (h : t.trip? id = some live) :
    t.resolve id = some id :=
  resolve_eq_some_iff.mpr (.inl ⟨⟨live, h⟩, rfl⟩)

/-- No id means a trip that is not there. -/
theorem resolve_ne_some (h : t.trip? key = none) : t.resolve id ≠ some key := by
  intro hkey
  obtain ⟨live, hlive⟩ := exists_trip?_of_resolve hkey
  rw [h] at hlive
  cases hlive

/-- An id means nothing if it is no key and no trip is known by it. -/
theorem resolve_eq_none_iff :
    t.resolve id = none ↔ t.trip? id = none ∧ ∀ k, ¬ t.KnownBy id k := by
  constructor
  · intro h
    have habsent : t.trip? id = none := by
      cases hid : t.trip? id with
      | none => rfl
      | some live =>
        rw [resolve_of_trip? hid] at h
        cases h
    have hcontains : ¬ t.trips.contains id = true :=
      Bool.eq_false_iff.mp (contains_eq_false_iff.mpr habsent)
    rw [resolve, if_neg hcontains, Option.map_eq_none_iff] at h
    refine ⟨habsent, ?_⟩
    rintro k ⟨live, hlive, hknown⟩
    exact List.find?_eq_none.mp h _ (SortedMap.find?_eq_some_iff.mp hlive)
      (answersTo_iff.mpr hknown)
  · rintro ⟨habsent, hunknown⟩
    refine Option.eq_none_iff_forall_ne_some.mpr fun key hkey => ?_
    rcases resolve_eq_some_iff.mp hkey with ⟨⟨live, hlive⟩, -⟩ | ⟨-, hknown, -⟩
    · rw [habsent] at hlive
      cases hlive
    · exact hunknown key hknown

/-- An id means the same in timetables in which the same trips are known by it. -/
theorem resolve_congr (hid : t.trip? id = none ↔ t'.trip? id = none)
    (hknown : ∀ k, t.KnownBy id k ↔ t'.KnownBy id k) : t.resolve id = t'.resolve id := by
  have hthere : (∃ live, t.trip? id = some live) ↔ ∃ live, t'.trip? id = some live := by
    rw [← Option.ne_none_iff_exists', ← Option.ne_none_iff_exists', ne_eq, ne_eq, hid]
  refine Option.ext fun key => ?_
  simp only [resolve_eq_some_iff, hid, hknown, hthere]

/-- Changing a trip in place does not change what ids mean. -/
theorem resolve_modifyTrip {f : LiveTrip → LiveTrip} (hf : ∀ live, (f live).trip = live.trip)
    (id : ScopedId) : (t.modifyTrip key f).resolve id = t.resolve id := by
  refine resolve_congr ?_ fun k => ?_
  · rw [trip?_modifyTrip]
    split_ifs <;> simp
  · simp only [KnownBy, trip?_modifyTrip]
    split_ifs with hk
    · simp [hf]
    · rfl

/-- A trip that is put in is known by its realtime id; the others are known as they were before. -/
theorem knownBy_putTrip_iff {live : LiveTrip} (hfresh : t.trip? live.trip.id = none) :
    (t.putTrip live).KnownBy id key ↔
      key = live.trip.id ∧ live.trip.id.feed = id.feed ∧
        live.trip.realtimeTripId = some id.localId ∨ t.KnownBy id key := by
  simp only [KnownBy, trip?_putTrip]
  by_cases hkey : key = live.trip.id
  · subst hkey
    simp [hfresh]
  · simp [hkey]

/-- Adding a trip does not change what an id means by which the trip is not known. -/
theorem resolve_putTrip {live : LiveTrip} (hfresh : t.trip? live.trip.id = none)
    (hid : id ≠ live.trip.id)
    (hunknown : ¬ (live.trip.id.feed = id.feed ∧ live.trip.realtimeTripId = some id.localId)) :
    (t.putTrip live).resolve id = t.resolve id := by
  refine resolve_congr ?_ fun k => ?_
  · rw [trip?_putTrip, if_neg hid]
  · rw [knownBy_putTrip_iff hfresh, or_iff_right fun hnew => hunknown hnew.2]

end Timetable

end Interchange
