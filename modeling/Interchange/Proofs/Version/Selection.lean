import Interchange.Proofs.FirstGreatest
import Interchange.Proofs.Version.Active
import Mathlib.Data.Fin.VecNotation
import Mathlib.Data.Int.ConditionallyCompleteOrder
import Mathlib.Order.Fin.Basic
import Mathlib.Tactic.IntervalCases

/-!
# Which versions are selected

Under each key the active set holds the first of the latest versions among those with that key
that are valid at the moment (`find?_activeSet_eq_some_iff`). It follows which lists of versions
have the same active set: a list of some of the versions has it if versions with equal keys come in
the same order and none that is selected is missing (`activeSet_eq_of_positions`). Rearrangements
across keys and deletions of what is not selected are the two special cases.
-/

namespace Interchange

variable {α κ : Type}

/-! ### The latest of several -/

/-- The latest of several is found by the usual search for a maximum. -/
theorem latestBy_eq_argmax (version : α → Int) (as : List α) :
    latestBy version as = as.argmax version := by
  cases as with
  | nil => rfl
  | cons best as =>
    change some (latestFrom version best as) =
      as.foldl (List.argAux fun b c => version c < version b) (some best)
    induction as generalizing best with
    | nil => rfl
    | cons a as ih =>
      -- both keep the earlier of two that are equally late
      have hstep : List.argAux (fun b c => version c < version b) (some best) a =
          some (if version a ≤ version best then best else a) := by
        by_cases hle : version a ≤ version best
        · rw [if_pos hle]
          exact if_neg (Int.not_lt.mpr hle)
        · rw [if_neg hle]
          exact if_pos (Int.not_le.mp hle)
      rw [latestFrom, ih, List.foldl_cons, hstep]

/-- The latest version is the one of the list that no other exceeds. -/
theorem latestVersion_eq {versions : List Int} {v : Int} (hv : v ∈ versions)
    (hmax : ∀ w ∈ versions, w ≤ v) : latestVersion versions = v := by
  have hmax? : versions.max? = some v := List.max?_eq_some_iff.mpr ⟨hv, hmax⟩
  cases versions with
  | nil => cases hv
  | cons w ws =>
    rw [List.max?_cons'] at hmax?
    exact Option.some.inj hmax?

/-- The latest of several has the latest version. -/
private theorem version_of_latestBy {version : α → Int} {as : List α} {a : α}
    (h : latestBy version as = some a) : version a = latestVersion (as.map version) := by
  rw [latestBy_eq_argmax] at h
  refine (latestVersion_eq (List.mem_map_of_mem (List.argmax_mem h)) fun w hw => ?_).symm
  obtain ⟨b, hb, rfl⟩ := List.mem_map.mp hw
  exact List.le_of_mem_argmax hb h

/-! ### Versions that compete -/

/-- A version competes under its key while it is valid. -/
def Competes (key : Versioned α → κ) (t : DateTime) (k : κ) (e : Versioned α) : Prop :=
  key e = k ∧ isValidAt e.validity t = true

/-- **Selection.** The version at position `i` is the first of the latest that compete under
its key. -/
def Selected (key : Versioned α → κ) (t : DateTime) (versions : List (Versioned α)) (i : Nat) :
    Prop :=
  ∃ k e, FirstGreatest (Competes key t k) Versioned.version versions i e

variable [Ord κ] [Std.TransOrd κ] [Std.LawfulEqOrd κ] [DecidableEq κ] {key : Versioned α → κ}
  {versions versions' : List (Versioned α)} {t : DateTime} {k : κ} {e : Versioned α}

/-- Under a key there is the first of the latest versions that compete for it. -/
theorem find?_activeSet_eq_some_iff :
    (activeSet key versions t).find? k = some e ↔
      ∃ i, FirstGreatest (Competes key t k) Versioned.version versions i e := by
  have hcompetes : (fun f : Versioned α =>
      (isValidAt f.validity t && decide (key f = k)) = true) = Competes key t k := by
    funext f
    rw [Bool.and_eq_true, decide_eq_true_eq, Competes, and_comm]
  rw [find?_activeSet, selectActive, List.filter_filter, latestBy_eq_argmax,
    argmax_filter_eq_some_iff, hcompetes]

/-- A key is there exactly if some version competes for it. -/
theorem isSome_find?_activeSet_iff :
    ((activeSet key versions t).find? k).isSome ↔ ∃ e ∈ versions, Competes key t k e := by
  rw [find?_activeSet, selectActive, latestBy_eq_argmax, Option.isSome_iff_ne_none, ne_eq,
    List.argmax_eq_none, List.filter_filter, List.filter_eq_nil_iff]
  simp [Competes, and_comm]

/-- **Same selection.** Versions may be left out and moved past versions with other keys, as long
as all selected ones stay. -/
theorem activeSet_eq_of_positions (f : Fin versions'.length → Fin versions.length)
    (hget : ∀ i, versions'.get i = versions.get (f i))
    (horder : ∀ i j, key (versions'.get i) = key (versions'.get j) → i < j → f i < f j)
    (hkept : ∀ p, Selected key t versions p → ∃ i, (f i : Nat) = p) :
    activeSet key versions' t = activeSet key versions t := by
  have hmem : ∀ e ∈ versions', e ∈ versions := by
    intro e he
    obtain ⟨i, rfl⟩ := List.get_of_mem he
    rw [hget]
    exact List.get_mem _ _
  refine SortedMap.ext_find? fun k => ?_
  cases hfind : (activeSet key versions t).find? k with
  | none =>
    -- what does not compete in the whole list does not compete in a part of it
    have hnone : ¬ ∃ e ∈ versions, Competes key t k e := by
      rw [← isSome_find?_activeSet_iff, hfind]
      exact Bool.false_ne_true
    rw [← Option.not_isSome_iff_eq_none, isSome_find?_activeSet_iff]
    exact fun ⟨e, he, hcompetes⟩ => hnone ⟨e, hmem e he, hcompetes⟩
  | some e =>
    obtain ⟨p, hp⟩ := find?_activeSet_eq_some_iff.mp hfind
    obtain ⟨i, rfl⟩ := hkept p ⟨k, e, hp⟩
    have hi : versions'.get i = e := by
      rw [hget, List.get_eq_getElem]
      exact (List.getElem?_eq_some_iff.mp hp.there).2
    refine find?_activeSet_eq_some_iff.mpr ⟨i, ?_, hp.eligible, fun b hb => ?_, ?_⟩
    · rw [← hi]
      exact List.getElem?_eq_getElem i.isLt
    · exact hp.greatest b (hmem b hb)
    · intro j b hj hb hrank
      obtain ⟨hlt, rfl⟩ := List.getElem?_eq_some_iff.mp hj
      have hget' := hget ⟨j, hlt⟩
      have hthere : versions[(f ⟨j, hlt⟩ : Nat)]? = some versions'[j] := by
        rw [List.getElem?_eq_getElem (f ⟨j, hlt⟩).isLt]
        exact congrArg some hget'.symm
      have hle := hp.first _ _ hthere hb hrank
      by_contra hji
      have hkeys : key (versions'.get ⟨j, hlt⟩) = key (versions'.get i) := by
        rw [hi]
        exact hb.1.trans hp.eligible.1.symm
      exact absurd (horder ⟨j, hlt⟩ i hkeys (Nat.lt_of_not_le hji)) (not_lt.mpr hle)

/-- **Active versions.** A key has an active version exactly if a version with that key is valid
at the moment, and then it is the first, in the order of the list, of the latest valid ones with
that key. Moving versions past those with other keys and leaving out versions that are not selected
changes nothing. Each key has the version that is active among its versions alone, and that is the
latest of the valid ones. -/
theorem activeSet_firstLatest (key : Versioned α → κ) (versions : List (Versioned α))
    (t : DateTime) :
    (∀ k, ((activeSet key versions t).find? k).isSome ↔ ∃ e ∈ versions, Competes key t k e) ∧
    (∀ k e, (activeSet key versions t).find? k = some e ↔
      ∃ i, FirstGreatest (Competes key t k) Versioned.version versions i e) ∧
    (∀ (versions' : List (Versioned α)) (σ : Fin versions'.length ≃ Fin versions.length),
      (∀ i, versions'.get i = versions.get (σ i)) →
      (∀ i j, key (versions'.get i) = key (versions'.get j) → i < j → σ i < σ j) →
      activeSet key versions' t = activeSet key versions t) ∧
    (∀ (versions' : List (Versioned α)) (f : Fin versions'.length ↪o Fin versions.length),
      (∀ i, versions'.get i = versions.get (f i)) →
      (∀ p, Selected key t versions p → ∃ i, (f i : Nat) = p) →
      activeSet key versions' t = activeSet key versions t) ∧
    ∀ k, (activeSet key versions t).find? k = selectActive (versions.filter (key · = k)) t ∧
      ∀ e, selectActive (versions.filter (key · = k)) t = some e →
        e.version = latestVersion (((versions.filter (key · = k)).filter
          fun f => isValidAt f.validity t).map Versioned.version) := by
  refine ⟨fun k => isSome_find?_activeSet_iff, fun k e => find?_activeSet_eq_some_iff,
    fun versions' σ hget horder => ?_, fun versions' f hget hkept => ?_, fun k => ?_⟩
  · refine activeSet_eq_of_positions σ hget horder fun p ⟨k, e, hp⟩ => ?_
    exact ⟨σ.symm ⟨p, hp.lt_length⟩, by rw [σ.apply_symm_apply]⟩
  · exact activeSet_eq_of_positions f hget (fun i j _ hlt => f.lt_iff_lt.mpr hlt) hkept
  · exact ⟨find?_activeSet key versions t k, fun e he => version_of_latestBy he⟩

/-- Of four versions of two lines the one with the greatest number has expired, and of two that
are equally late the first is active. The other two can be left out. -/
theorem activeSet_firstLatest_two_lines :
    let key (e : Versioned (Nat × String)) : Nat := e.value.1
    let day (n : Nat) (h : 1 ≤ n ∧ n ≤ 30) : DateTime :=
      ⟨2024, 6, n, 0, 0, 0, 0, by decide, h, by decide⟩
    let old : Window := ⟨none, some (day 5 (by decide))⟩
    let versions : List (Versioned (Nat × String)) :=
      [⟨⟨"7"⟩, [old], (1, "expired")⟩, ⟨.any, [], (2, "night")⟩, ⟨⟨"v3"⟩, [], (1, "blue")⟩,
        ⟨⟨"3"⟩, [], (1, "red")⟩]
    let noon := day 10 (by decide)
    (∃ i, FirstGreatest (Competes key noon 1) Versioned.version versions i
      ⟨⟨"v3"⟩, [], (1, "blue")⟩) ∧
    activeSet key [⟨.any, [], (2, "night")⟩, ⟨⟨"v3"⟩, [], (1, "blue")⟩] noon =
      activeSet key versions noon := by
  intro key day old versions noon
  obtain ⟨-, hfirst, -, hdeleted, -⟩ := activeSet_firstLatest key versions noon
  have hblue := (hfirst 1 ⟨⟨"v3"⟩, [], (1, "blue")⟩).mp (by decide)
  refine ⟨hblue, hdeleted _ (.ofStrictMono ![1, 2] (by decide)) (by decide) ?_⟩
  rintro p ⟨k, e, hp⟩
  have hlt : p < 4 := hp.lt_length
  interval_cases p
  · -- the first version is not valid any more
    obtain rfl := Option.some.inj hp.there
    exact absurd hp.eligible.2 (by decide)
  · exact ⟨0, rfl⟩
  · exact ⟨1, rfl⟩
  · -- the last version is as late as the one before it
    obtain rfl := Option.some.inj hp.there
    exact absurd (hp.first 2 _ rfl ⟨hp.eligible.1, by decide⟩ (by decide)) (by decide)

end Interchange
