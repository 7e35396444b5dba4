import Interchange.Proofs.Timetable.Steps

/-!
# When ids change their meaning

An id means the trip under it, or else the trip with the least key among those that are known by it
(`Timetable.Means`). Taking trips out of service and rerouting them changes neither keys nor
realtime ids, so every id keeps its meaning (`Timetable.resolve_applyAll`). A trip that is added
takes over its own id, and the one that is its realtime id if that meant nothing before or a trip
with a greater key (`Timetable.Captures`); no other id changes its meaning
(`Timetable.resolve_putTrip_ne_iff`).
-/

namespace Interchange

namespace Timetable

variable {t t' : Timetable} {m : Mutation} {id key : ScopedId}

/-! ### What an id means -/

/-- **Meanings.** What an id means in a timetable. -/
inductive Means (t : Timetable) (id : ScopedId) : Option ScopedId → Prop
  /-- The id is a key -/
  | itself {live : LiveTrip} (there : t.trip? id = some live) : Means t id (some id)
  /-- It is not, and this is the least key of the trips that are known by it -/
  | least {key : ScopedId} (absent : t.trip? id = none) (known : t.KnownBy id key)
      (least : ∀ k, t.KnownBy id k → k ≠ key → compare key k = .lt) : Means t id (some key)
  /-- It is not, and no trip is known by it -/
  | nothing (absent : t.trip? id = none) (unknown : ∀ k, ¬ t.KnownBy id k) : Means t id none

/-- An id resolves to what it means. -/
theorem means_resolve (t : Timetable) (id : ScopedId) : t.Means id (t.resolve id) := by
  cases h : t.resolve id with
  | none =>
    obtain ⟨habsent, hunknown⟩ := resolve_eq_none_iff.mp h
    exact .nothing habsent hunknown
  | some key =>
    rcases resolve_eq_some_iff.mp h with ⟨⟨live, hlive⟩, rfl⟩ | ⟨habsent, hknown, hleast⟩
    · exact .itself hlive
    · exact .least habsent hknown hleast

/-! ### Trips that are changed in place -/

/-- An edit in place changes neither keys nor realtime ids. -/
private theorem Edit.resolve_eq (h : t.Edit t' none) (id : ScopedId) :
    t'.resolve id = t.resolve id := by
  cases h with
  | nothing => rfl
  | inPlace hrecord => exact resolve_modifyTrip hrecord id

/-- A run that adds no trip leaves every id its meaning. -/
theorem resolve_applyAll {ms : List Mutation} (h : ∀ m ∈ ms, m.isAddition = false)
    (id : ScopedId) : (t.applyAll ms).1.resolve id = t.resolve id := by
  induction ms generalizing t with
  | nil => rfl
  | cons m ms ih =>
    obtain ⟨hm, hms⟩ := List.forall_mem_cons.mp h
    have hedit := edit_apply t m
    rw [added?_of_isAddition hm] at hedit
    exact (ih hms).trans (hedit.resolve_eq id)

/-! ### Trips that are added -/

/-- **Captures.** An id that is no key comes to mean a trip that is added: it is the trip's realtime
id, and has meant nothing or a trip with a greater key. -/
structure Captures (t : Timetable) (trip : Trip) (id : ScopedId) : Prop where
  absent : t.trip? id = none
  feed : id.feed = trip.id.feed
  realtimeId : trip.realtimeTripId = some id.localId
  greater : ∀ key, t.resolve id = some key → compare trip.id key = .lt

section Put

variable {live : LiveTrip}

/-- A trip that is put in is what its id means. -/
theorem resolve_putTrip_self (t : Timetable) (live : LiveTrip) :
    (t.putTrip live).resolve live.trip.id = some live.trip.id :=
  resolve_of_trip? ((trip?_putTrip t live _).trans (if_pos rfl))

/-- An id that is captured means the trip that is put in. -/
private theorem resolve_putTrip_of_captures (hfresh : t.trip? live.trip.id = none)
    (h : t.Captures live.trip id) : (t.putTrip live).resolve id = some live.trip.id := by
  by_cases hid : id = live.trip.id
  · rw [hid]
    exact resolve_putTrip_self t live
  have habsent : (t.putTrip live).trip? id = none := by rw [trip?_putTrip, if_neg hid, h.absent]
  refine resolve_eq_some_iff.mpr (.inr ⟨habsent, ?_, fun k hk hne => ?_⟩)
  · exact (knownBy_putTrip_iff hfresh).mpr (.inl ⟨rfl, h.feed.symm, h.realtimeId⟩)
  · have hold : t.KnownBy id k :=
      ((knownBy_putTrip_iff hfresh).mp hk).resolve_left fun hnew => hne hnew.1
    -- whatever the id meant before comes no later than `k`, and after the new trip
    cases hbefore : t.resolve id with
    | none => exact absurd hold ((resolve_eq_none_iff.mp hbefore).2 k)
    | some key =>
      have hlt := h.greater key hbefore
      rcases resolve_eq_some_iff.mp hbefore with ⟨⟨old, hthere⟩, -⟩ | ⟨-, -, hleast⟩
      · rw [h.absent] at hthere
        cases hthere
      · by_cases hkey : k = key
        · rwa [hkey]
        · exact Std.TransCmp.lt_trans hlt (hleast k hold hkey)

/-- Any other id, but for that of the trip itself, keeps its meaning. -/
private theorem resolve_putTrip_of_not_captures (hfresh : t.trip? live.trip.id = none)
    (hid : id ≠ live.trip.id) (h : ¬ t.Captures live.trip id) :
    (t.putTrip live).resolve id = t.resolve id := by
  by_cases hknown : live.trip.id.feed = id.feed ∧ live.trip.realtimeTripId = some id.localId
  · obtain ⟨hfeed, hrealtime⟩ := hknown
    cases hthere : t.trip? id with
    | some old =>
      have hthere' : (t.putTrip live).trip? id = some old := by
        rw [trip?_putTrip, if_neg hid, hthere]
      rw [resolve_of_trip? hthere', resolve_of_trip? hthere]
    | none =>
      -- the id has a meaning already, and it is not after the new trip
      obtain ⟨key, hkey, hle⟩ : ∃ key, t.resolve id = some key ∧
          compare live.trip.id key ≠ .lt := by
        by_contra hnone
        push Not at hnone
        exact h ⟨hthere, hfeed.symm, hrealtime, hnone⟩
      rcases resolve_eq_some_iff.mp hkey with ⟨⟨old, hold⟩, -⟩ | ⟨-, hold, hleast⟩
      · rw [hthere] at hold
        cases hold
      have hne : key ≠ live.trip.id := by
        rintro rfl
        exact resolve_ne_some hfresh hkey
      have hlt : compare key live.trip.id = .lt := by
        cases hcompare : compare live.trip.id key with
        | lt => exact absurd hcompare hle
        | eq => exact absurd (Std.LawfulEqCmp.eq_of_compare hcompare).symm hne
        | gt => exact Std.OrientedCmp.lt_of_gt hcompare
      have habsent : (t.putTrip live).trip? id = none := by rw [trip?_putTrip, if_neg hid, hthere]
      rw [hkey]
      refine resolve_eq_some_iff.mpr (.inr ⟨habsent, ?_, fun k hk hkne => ?_⟩)
      · exact (knownBy_putTrip_iff hfresh).mpr (.inr hold)
      · rcases (knownBy_putTrip_iff hfresh).mp hk with ⟨rfl, -⟩ | hk
        · exact hlt
        · exact hleast k hk hkne
  · exact resolve_putTrip hfresh hid hknown

/-- A trip that is put in takes over its own id and those that it captures, no others. -/
theorem resolve_putTrip_ne_iff (hfresh : t.trip? live.trip.id = none) :
    (t.putTrip live).resolve id ≠ t.resolve id ↔ id = live.trip.id ∨ t.Captures live.trip id := by
  have hnew : t.resolve id ≠ some live.trip.id := resolve_ne_some hfresh
  constructor
  · intro hne
    by_contra hnot
    rw [not_or] at hnot
    exact hne (resolve_putTrip_of_not_captures hfresh hnot.1 hnot.2)
  · rintro (rfl | hcaptures)
    · rw [resolve_putTrip_self]
      exact hnew.symm
    · rw [resolve_putTrip_of_captures hfresh hcaptures]
      exact hnew.symm

end Put

/-! ### All together -/

/-- **Resolution.** Every id resolves to what it means. Runs that add no trip leave every id its
meaning. When a trip has been added, exactly its own id and the captured ids have changed their
meaning, and they mean the trip. -/
theorem resolution (t : Timetable) :
    (∀ id, t.Means id (t.resolve id)) ∧
      (∀ ms, (∀ m ∈ ms, m.isAddition = false) →
        ∀ id, (t.applyAll ms).1.resolve id = t.resolve id) ∧
      ∀ trip calls warnings, (t.apply (.addTrip trip calls)).2 = .ok warnings →
        ∀ id,
          ((t.apply (.addTrip trip calls)).1.resolve id ≠ t.resolve id ↔
            id = trip.id ∨ t.Captures trip id) ∧
          (id = trip.id ∨ t.Captures trip id →
            (t.apply (.addTrip trip calls)).1.resolve id = some trip.id) := by
  refine ⟨t.means_resolve, fun ms h => resolve_applyAll h, fun trip calls warnings h id => ?_⟩
  obtain ⟨hfresh, hput⟩ := (succeeds_of_ok h).eq_putTrip
  rw [hput]
  refine ⟨resolve_putTrip_ne_iff hfresh, ?_⟩
  rintro (rfl | hcaptures)
  · exact resolve_putTrip_self t _
  · exact resolve_putTrip_of_captures hfresh hcaptures

/-- A realtime id means the night line, also when that is cancelled and rerouted, until an express
that is known by the same id and has a smaller key is added. -/
theorem resolution_night_express :
    let night : Trip := ⟨⟨"F", "N", by decide⟩, ⟨"F", "R", by decide⟩, some "rt", none⟩
    let express : Trip := ⟨⟨"F", "E", by decide⟩, ⟨"F", "R", by decide⟩, some "rt", none⟩
    let calls : List Call := [⟨0, 1, .hms 8 0 0, .hms 8 0 0⟩, ⟨1, 2, .hms 8 5 0, .hms 8 5 0⟩]
    let rt : ScopedId := ⟨"F", "rt", by decide⟩
    let t := seed 2 [⟨night, calls⟩]
    t.resolve rt = some night.id ∧
      (t.applyAll [.cancel rt, .reroute rt calls]).1.resolve rt = some night.id ∧
      (t.apply (.addTrip express calls)).1.resolve rt = some express.id := by
  intro night express calls rt t
  have hbefore : t.resolve rt = some night.id := by decide
  have hcaptures : t.Captures express rt := by
    refine ⟨by decide, rfl, rfl, fun key hkey => ?_⟩
    obtain rfl := Option.some.inj (hbefore.symm.trans hkey)
    decide
  obtain ⟨-, hruns, hadded⟩ := resolution t
  refine ⟨hbefore, ?_, ?_⟩
  · rw [hruns [.cancel rt, .reroute rt calls] (by decide) rt, hbefore]
  · exact (hadded express calls [] (by decide) rt).2 (.inr hcaptures)

end Timetable

end Interchange
