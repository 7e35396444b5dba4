import Interchange.Network.Description
import Interchange.Proofs.Checks
import Interchange.Proofs.Network.Proximity
import Interchange.Proofs.Transfer.Share

/-!
# Footpaths that lead to no stop

The footpaths of a network are the described ones, filled up with empty lists, and those to stops
nearby. The latter always lead to stops (`Sweep.lt_length_of_mem_nearPairs`), so the check of
destinations finds what it would find in the description alone
(`Description.firstStray_footpathsByStop`), and it names the first list with a stray footpath and
the first such footpath in it (`Description.firstStray_describedFootpaths_eq_some_iff`).
-/

namespace Interchange

open TransferGraph

/-! ### The first stray footpath -/

/-- The first footpath of a stop that leads to no stop. -/
def stray? (stops : Nat) (paths : List Footpath) : Option Footpath :=
  paths.find? fun path => stops ≤ path.target

/-- A footpath that leads to a stop makes no difference to the first that does not. -/
private theorem stray?_concat {stops : Nat} {path : Footpath} (h : path.target < stops)
    (paths : List Footpath) : stray? stops (paths ++ [path]) = stray? stops paths := by
  have hnone : [path].find? (fun path => stops ≤ path.target) = none := by simpa using h
  rw [stray?, List.find?_append, hnone, Option.or_none, stray?]

/-- Only the first stray footpath of each stop matters. -/
private theorem firstStray_congr {paths paths' : List (List Footpath)}
    (hlength : paths.length = paths'.length)
    (h : paths.map (stray? paths'.length) = paths'.map (stray? paths'.length)) :
    firstStray paths = firstStray paths' := by
  -- the search sees nothing of a list but its first stray
  have hfirst : ∀ paths'' : List (List Footpath), paths''.length = paths'.length →
      firstStray paths'' = (paths''.map (stray? paths'.length)).zipIdx.findSome?
        fun (path?, origin) => path?.map fun path => ⟨origin, path.target, paths'.length⟩ := by
    intro paths'' hlength''
    rw [firstStray, hlength'', List.zipIdx_map, List.findSome?_map]
    rfl
  rw [hfirst paths hlength, hfirst paths' rfl, h]

/-- The footpath that is reported is the first of its stop, and its stop the first of all. -/
theorem firstStray_eq_some_iff {paths : List (List Footpath)} {e : TransferGraphError} :
    firstStray paths = some e ↔
      ∃ origin ps j path,
        FirstAt (fun ps => ∃ path ∈ ps, paths.length ≤ path.target) paths origin ps ∧
          FirstAt (fun path => paths.length ≤ path.target) ps j path ∧
            ⟨origin, path.target, paths.length⟩ = e := by
  have hsearch : firstStray paths = paths.zipIdx.findSome? fun entry =>
      (entry.1.find? fun path => paths.length ≤ path.target).map
        fun path => ⟨entry.2, path.target, paths.length⟩ := rfl
  rw [hsearch, findSome?_find?_eq_some_iff]
  simp only [decide_eq_true_eq]
  constructor
  · rintro ⟨i, ⟨ps, origin⟩, j, path, hi, hj, he⟩
    obtain ⟨rfl, hi⟩ := (firstAt_zipIdx_iff
      (P := fun ps : List Footpath => ∃ path ∈ ps, paths.length ≤ path.target)).mp hi
    exact ⟨_, ps, j, path, hi, hj, he⟩
  · rintro ⟨origin, ps, j, path, hi, hj, he⟩
    exact ⟨origin, (ps, origin), j, path, firstAt_zipIdx_iff.mpr ⟨rfl, hi⟩, hj, he⟩

/-! ### Footpaths to stops nearby -/

private theorem map_modify_eq {α β : Type} {f : α → β} {g : α → α} (h : ∀ a, f (g a) = f a)
    (as : List α) (i : Nat) : (as.modify i g).map f = as.map f := by
  refine List.ext_getElem? fun j => ?_
  rw [List.getElem?_map, List.getElem?_map, List.getElem?_modify]
  cases as[j]? with
  | none => rfl
  | some a =>
    by_cases hij : i = j
    · simp [hij, h]
    · simp [hij]

@[simp]
theorem length_addNearPair (lists : List (List Footpath)) (pair : NearPair Float) :
    (addNearPair lists pair).length = lists.length := by
  rw [addNearPair, List.length_modify, List.length_modify]

private theorem map_stray?_addNearPair {stops : Nat} {pair : NearPair Float}
    (h : pair.first < stops ∧ pair.second < stops) (lists : List (List Footpath)) :
    (addNearPair lists pair).map (stray? stops) = lists.map (stray? stops) := by
  rw [addNearPair, map_modify_eq (stray?_concat h.1), map_modify_eq (stray?_concat h.2)]

theorem length_foldl_addNearPair (pairs : List (NearPair Float)) (lists : List (List Footpath)) :
    (pairs.foldl addNearPair lists).length = lists.length := by
  induction pairs generalizing lists with
  | nil => rfl
  | cons pair pairs ih => rw [List.foldl_cons, ih, length_addNearPair]

private theorem map_stray?_foldl_addNearPair {stops : Nat} {pairs : List (NearPair Float)}
    (h : ∀ pair ∈ pairs, pair.first < stops ∧ pair.second < stops) (lists : List (List Footpath)) :
    (pairs.foldl addNearPair lists).map (stray? stops) = lists.map (stray? stops) := by
  induction pairs generalizing lists with
  | nil => rfl
  | cons pair pairs ih =>
    obtain ⟨hpair, hpairs⟩ := List.forall_mem_cons.mp h
    rw [List.foldl_cons, ih hpairs, map_stray?_addNearPair hpair]

/-! ### The footpaths of a description -/

namespace Description

variable {d : Description} {paths : List (List Footpath)}

private theorem lt_length_of_mem_nearStops {pair : NearPair Float} (h : pair ∈ d.nearStops) :
    pair.first < d.stops.length ∧ pair.second < d.stops.length := by
  rw [nearStops] at h
  split at h
  · cases h
  · exact Sweep.lt_length_of_mem_nearPairs h

/-- Lists of footpaths are put together if there are not more of them than stops. -/
theorem footpathsByStop_eq_ok_iff :
    d.footpathsByStop = .ok paths ↔ d.footpaths.length ≤ d.stops.length ∧
      d.nearStops.foldl addNearPair d.describedFootpaths = paths := by
  rw [footpathsByStop]
  split_ifs with h
  · simp [Nat.not_le.mpr h]
  · simp [Nat.not_lt.mp h]

/-- If there are more lists than stops, both numbers are reported. -/
theorem footpathsByStop_eq_error_iff {e : FootpathListsError} :
    d.footpathsByStop = .error e ↔ d.stops.length < d.footpaths.length ∧
      ⟨d.footpaths.length, d.stops.length⟩ = e := by
  rw [footpathsByStop]
  split_ifs with h <;> simp [h]

theorem length_describedFootpaths (h : d.footpaths.length ≤ d.stops.length) :
    d.describedFootpaths.length = d.stops.length := by
  rw [describedFootpaths, List.length_append, List.length_replicate, Nat.add_sub_cancel' h]

/-- Every stop has a list of footpaths. -/
theorem length_footpathsByStop (h : d.footpathsByStop = .ok paths) :
    paths.length = d.stops.length := by
  obtain ⟨hlists, rfl⟩ := footpathsByStop_eq_ok_iff.mp h
  rw [length_foldl_addNearPair, length_describedFootpaths hlists]

/-- **Strays are described.** Footpaths to stops nearby do not show in the check. -/
theorem firstStray_footpathsByStop (h : d.footpathsByStop = .ok paths) :
    firstStray paths = firstStray d.describedFootpaths := by
  obtain ⟨hlists, rfl⟩ := footpathsByStop_eq_ok_iff.mp h
  refine firstStray_congr (length_foldl_addNearPair _ _) (map_stray?_foldl_addNearPair ?_ _)
  intro pair hpair
  rw [length_describedFootpaths hlists]
  exact lt_length_of_mem_nearStops hpair

/-- The empty lists that are filled in have no footpath that leads nowhere. -/
theorem firstStray_describedFootpaths_eq_none_iff (h : d.footpaths.length ≤ d.stops.length) :
    firstStray d.describedFootpaths = none ↔
      ∀ ps ∈ d.footpaths, ∀ path ∈ ps, path.target < d.stops.length := by
  rw [firstStray_eq_none_iff, length_describedFootpaths h, describedFootpaths]
  constructor
  · exact fun hknown ps hps => hknown ps (List.mem_append_left _ hps)
  · intro hknown ps hps path hpath
    rcases List.mem_append.mp hps with hps | hps
    · exact hknown ps hps path hpath
    · rw [List.eq_of_mem_replicate hps] at hpath
      cases hpath

/-- **The first stray.** Stops beyond the last list have no footpaths that could be stray. -/
theorem firstStray_describedFootpaths_eq_some_iff (h : d.footpaths.length ≤ d.stops.length)
    {e : TransferGraphError} :
    firstStray d.describedFootpaths = some e ↔
      ∃ origin ps j path,
        FirstAt (fun ps => ∃ path ∈ ps, d.stops.length ≤ path.target) d.footpaths origin ps ∧
          FirstAt (fun path => d.stops.length ≤ path.target) ps j path ∧
            ⟨origin, path.target, d.stops.length⟩ = e := by
  have hempty : ∀ ps ∈ List.replicate (d.stops.length - d.footpaths.length) ([] : List Footpath),
      ¬ ∃ path ∈ ps, d.stops.length ≤ path.target := by
    rintro ps hps ⟨path, hpath, -⟩
    rw [List.eq_of_mem_replicate hps] at hpath
    cases hpath
  rw [firstStray_eq_some_iff, length_describedFootpaths h]
  simp only [describedFootpaths, firstAt_append_iff hempty]

end Description

end Interchange
