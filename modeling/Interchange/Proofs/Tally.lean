import Interchange.SortedMap
import Mathlib.Data.List.Induction
import Mathlib.Data.List.Perm.Basic
import Mathlib.Tactic.Common

/-!
# Counting with maps

`SortedMap.tally` counts the keys of a list one after the other. The number that it ends with under
a key is that of its occurrences, and a key that does not occur has no entry (`find?_tally`). The
numbers add up to the length of the list (`total_tally`).
-/

namespace Interchange

namespace SortedMap

variable {κ : Type} [Ord κ]

/-- The sum of the numbers in a map. -/
def total (m : SortedMap κ Nat) : Nat := m.values.foldr (· + ·) 0

variable [Std.TransOrd κ] [Std.LawfulEqOrd κ] {m : SortedMap κ Nat} {k : κ} {n : Nat}

theorem tally_concat (ks : List κ) (k : κ) : tally (ks ++ [k]) = (tally ks).upsert k 0 (· + 1) := by
  rw [tally, List.foldl_append]
  rfl

/-- **Single keys.** The number under a key is that of its occurrences. -/
theorem find?_tally [DecidableEq κ] (ks : List κ) (k : κ) :
    (tally ks).find? k = if ks.count k = 0 then none else some (ks.count k) := by
  induction ks using List.reverseRecOn with
  | nil => rfl
  | append_singleton ks k' ih =>
    rw [tally_concat, find?_upsert, List.count_append, List.count_singleton]
    by_cases hk : k = k'
    · subst hk
      rw [ih]
      by_cases hzero : ks.count k = 0 <;> simp [hzero]
    · simp [hk, Ne.symm hk, ih]

/-! ### The sum -/

private theorem total_insert_of_none (h : m.find? k = none) (n : Nat) :
    (m.insert k n).total = n + m.total :=
  ((perm_entries_insert_of_none h n).map Prod.snd).foldr_eq 0

private theorem add_total_insert_of_some (h : m.find? k = some n) (n' : Nat) :
    n + (m.insert k n').total = n' + m.total :=
  ((perm_entries_insert_of_some h n').map Prod.snd).foldr_eq 0

/-- A key adds one to the sum each time that it is counted. -/
private theorem total_upsert_add_one (m : SortedMap κ Nat) (k : κ) :
    (m.upsert k 0 (· + 1)).total = m.total + 1 := by
  cases h : m.find? k with
  | none =>
    have hinsert := total_insert_of_none h 1
    rw [upsert, h]
    exact hinsert.trans (Nat.add_comm _ _)
  | some n =>
    have hinsert := add_total_insert_of_some h (n + 1)
    rw [upsert, h, Option.getD_some]
    omega

/-- **All keys.** The numbers add up to the length of the list. -/
theorem total_tally (ks : List κ) : (tally ks).total = ks.length := by
  induction ks using List.reverseRecOn with
  | nil => rfl
  | append_singleton ks k ih => rw [tally_concat, total_upsert_add_one, ih, List.length_append]; rfl

end SortedMap

end Interchange
