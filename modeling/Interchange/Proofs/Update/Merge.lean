import Interchange.Proofs.Update.Outcome

/-!
# Adding results up

The results of two lists of outcomes can be merged, field by field, into the result of both lists
together (`BatchResult.ofOutcomes_append`). Numbers are added and lists put one behind the other,
for each reason by itself where errors are grouped (`SortedMap.find?_mergeWith`).
-/

namespace Interchange

/-! ### Merging maps -/

namespace SortedMap

variable {κ ν : Type} [Ord κ] [Std.TransOrd κ] [Std.LawfulEqOrd κ]

/-- Puts in an entry; if its key has a value already, the two values are combined. -/
def mergeEntry (f : ν → ν → ν) (m : SortedMap κ ν) (e : κ × ν) : SortedMap κ ν :=
  m.insert e.1 (((m.find? e.1).map fun v => f v e.2).getD e.2)

/-- The entries of two maps; where both have a value, the two values are combined. -/
def mergeWith (f : ν → ν → ν) (m m' : SortedMap κ ν) : SortedMap κ ν :=
  m'.entries.foldl (mergeEntry f) m

variable [DecidableEq κ]

/-- No two entries have the same key, so each is combined with what stood there at first. -/
private theorem find?_foldl_mergeEntry (f : ν → ν → ν) {es : List (κ × ν)}
    (hasc : es.Pairwise fun a b => compare a.1 b.1 = .lt) (m : SortedMap κ ν) (k : κ) :
    (es.foldl (mergeEntry f) m).find? k = Option.merge f (m.find? k) (findEntry k es) := by
  induction es generalizing m with
  | nil => cases h : m.find? k <;> simp [h, findEntry]
  | cons e es ih =>
    obtain ⟨k', v⟩ := e
    obtain ⟨hall, htail⟩ := List.pairwise_cons.mp hasc
    rw [List.foldl_cons, ih htail, mergeEntry, find?_insert, findEntry]
    by_cases hk : k = k'
    · subst hk
      have hrest : findEntry k es = none := findEntry_eq_none_of_lt hall
      rw [hrest, if_pos rfl, if_pos Std.ReflCmp.compare_self]
      cases m.find? k <;> rfl
    · rw [if_neg hk, if_neg (mt Std.LawfulEqCmp.eq_of_compare hk)]

theorem find?_mergeWith (f : ν → ν → ν) (m m' : SortedMap κ ν) (k : κ) :
    (m.mergeWith f m').find? k = Option.merge f (m.find? k) (m'.find? k) :=
  find?_foldl_mergeEntry f m'.ascending m k

end SortedMap

namespace BatchResult

/-! ### Merging results -/

/-- Two results together, the second one after the first. -/
def merge (r r' : BatchResult) : BatchResult where
  successful := r.successful + r'.successful
  failed := r.failed + r'.failed
  failures := r.failures.mergeWith (· ++ ·) r'.failures
  warnings := r.warnings ++ r'.warnings
  successes := r.successes ++ r'.successes
  errors := r.errors ++ r'.errors

theorem merge_empty (r : BatchResult) : r.merge {} = r := by
  obtain ⟨successful, failed, failures, warnings, successes, errors⟩ := r
  simp only [merge, List.append_nil, Nat.add_zero]
  rfl

/-- A group that gets one more error gets it at its end, merged or not. -/
private theorem mergeWith_upsert (m m' : SortedMap FailureReason (List UpdateError))
    (reason : FailureReason) (e : UpdateError) :
    m.mergeWith (· ++ ·) (m'.upsert reason [] (· ++ [e])) =
      (m.mergeWith (· ++ ·) m').upsert reason [] (· ++ [e]) := by
  refine SortedMap.ext_find? fun k => ?_
  rw [SortedMap.find?_mergeWith, SortedMap.find?_upsert, SortedMap.find?_upsert]
  by_cases hk : k = reason
  · subst hk
    rw [if_pos rfl, if_pos rfl, SortedMap.find?_mergeWith]
    cases m.find? k <;> cases m'.find? k <;> simp
  · rw [if_neg hk, if_neg hk, SortedMap.find?_mergeWith]

/-- One more outcome can be added before or after results are merged. -/
private theorem merge_add (r r' : BatchResult) (o : Outcome) :
    r.merge (r'.add o) = (r.merge r').add o := by
  cases o with
  | ok warnings => simp only [merge, add, Nat.add_assoc, List.append_assoc]
  | error e => simp only [merge, add, Nat.add_assoc, List.append_assoc, mergeWith_upsert]

/-- **Consecutive lists.** The result of two lists of outcomes is that of the first merged with that
of the second. -/
theorem ofOutcomes_append (outcomes outcomes' : List Outcome) :
    ofOutcomes (outcomes ++ outcomes') = (ofOutcomes outcomes).merge (ofOutcomes outcomes') := by
  induction outcomes' using List.reverseRecOn with
  | nil =>
    rw [List.append_nil]
    exact (merge_empty _).symm
  | append_singleton outcomes' o ih =>
    rw [← List.append_assoc, ofOutcomes_concat, ih, ofOutcomes_concat, merge_add]

end BatchResult

end Interchange
