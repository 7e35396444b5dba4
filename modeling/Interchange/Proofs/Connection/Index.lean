import Interchange.Connection.Index
import Mathlib.Data.List.Induction
import Mathlib.Tactic.Common

/-!
# What the index of connections holds

The index is a sorted way to filter: under a source it has the connections that leave there and
are not forbidden, in the order in which they were registered (`ConnectionIndex.lookup_ofList`).
Every connection is counted once, as one that is held or as one that is forbidden
(`ConnectionIndex.size_add_forbidden_ofList`).
-/

namespace Interchange.ConnectionIndex

/-- The connection that comes last in the list is the last to be registered. -/
theorem ofList_concat (cs : List Connection) (c : Connection) :
    ofList (cs ++ [c]) = (ofList cs).add c := by
  rw [ofList, List.foldl_append]
  rfl

/-- The two levels of the index, each read as a map that is empty where there is nothing. -/
private theorem lookup_eq_getD (index : ConnectionIndex) (source : TripPosition) :
    index.lookup source =
      (((index.bySource.find? source.trip).getD .empty).find? source.position).getD [] := by
  rw [lookup]
  cases index.bySource.find? source.trip <;> rfl

/-- A connection that is not forbidden is put behind the others of its source, and the positions
of other trips and the other positions of its trip keep what they have. -/
theorem lookup_add (index : ConnectionIndex) {c : Connection} (hallowed : ¬ c.rule.isNotAllowed)
    (source : TripPosition) :
    (index.add c).lookup source =
      if source = c.source then index.lookup source ++ [c] else index.lookup source := by
  have hsame : source = c.source ↔
      source.trip = c.source.trip ∧ source.position = c.source.position := by
    cases source; cases c.source; simp
  simp only [lookup_eq_getD, add, if_neg hallowed, hsame, SortedMap.getD_find?_upsert]
  by_cases htrip : source.trip = c.source.trip
  · simp only [htrip, if_true, true_and, SortedMap.getD_find?_upsert]
  · simp only [htrip, if_false, false_and]

/-- **Looking up.** Forbidden connections are not found, and the others under their source. -/
theorem lookup_ofList (cs : List Connection) (source : TripPosition) :
    (ofList cs).lookup source = cs.filter fun c => !c.rule.isNotAllowed && c.source = source := by
  induction cs using List.reverseRecOn with
  | nil => rfl
  | append_singleton cs c ih =>
    rw [ofList_concat, List.filter_append, ← ih]
    cases hforbidden : c.rule.isNotAllowed with
    | true => simp [add, lookup, hforbidden]
    | false =>
      rw [lookup_add _ (by simp [hforbidden])]
      by_cases hsource : source = c.source
      · simp [hforbidden, hsource]
      · simp [hforbidden, hsource, Ne.symm hsource]

/-- Every connection of the list is either held or counted as forbidden. -/
theorem size_add_forbidden_ofList (cs : List Connection) :
    (ofList cs).size + (ofList cs).forbidden = cs.length := by
  induction cs using List.reverseRecOn with
  | nil => rfl
  | append_singleton cs c ih =>
    rw [ofList_concat, List.length_append, List.length_singleton, ← ih, add]
    split_ifs
    · exact (Nat.add_assoc _ _ _).symm
    · exact Nat.add_right_comm _ _ _

end Interchange.ConnectionIndex
