import Interchange.Network.Proximity
import Mathlib.Data.List.Basic
import Mathlib.Tactic.Common

/-!
# Near pairs are pairs of items

Whatever the sweep finds near each other are two of the items, given by their indices
(`Sweep.lt_length_of_mem_nearPairs`).
-/

namespace Interchange.Sweep

variable {α δ : Type} {s : Sweep α δ} {a : α} {i : Nat} {rest items : List (α × Nat)}
  {p : NearPair δ}

private theorem exists_of_mem_pairsAhead (h : p ∈ s.pairsAhead a i rest) :
    ∃ b j, (b, j) ∈ rest ∧ p = ⟨min i j, max i j, s.distance a b⟩ := by
  induction rest with
  | nil => cases h
  | cons entry rest ih =>
    obtain ⟨b, j⟩ := entry
    have hlater : p ∈ s.pairsAhead a i rest →
        ∃ c k, (c, k) ∈ (b, j) :: rest ∧ p = ⟨min i k, max i k, s.distance a c⟩ := by
      intro h
      obtain ⟨c, k, hmem, hp⟩ := ih h
      exact ⟨c, k, List.mem_cons_of_mem _ hmem, hp⟩
    simp only [pairsAhead] at h
    split_ifs at h
    · cases h
    · rcases List.mem_cons.mp h with hp | h
      · exact ⟨b, j, List.mem_cons_self, hp⟩
      · exact hlater h
    · exact hlater h

private theorem exists_of_mem_pairsInOrder (h : p ∈ s.pairsInOrder items) :
    ∃ a i b j, (a, i) ∈ items ∧ (b, j) ∈ items ∧
      p = ⟨min i j, max i j, s.distance a b⟩ := by
  induction items with
  | nil => cases h
  | cons entry items ih =>
    obtain ⟨a, i⟩ := entry
    rw [pairsInOrder] at h
    rcases List.mem_append.mp h with h | h
    · obtain ⟨b, j, hmem, hp⟩ := exists_of_mem_pairsAhead h
      exact ⟨a, i, b, j, List.mem_cons_self, List.mem_cons_of_mem _ hmem, hp⟩
    · obtain ⟨a', i', b, j, hi, hj, hp⟩ := ih h
      exact ⟨a', i', b, j, List.mem_cons_of_mem _ hi, List.mem_cons_of_mem _ hj, hp⟩

/-- **Bounds.** A near pair is given by two indices of items. -/
theorem lt_length_of_mem_nearPairs {items : List α} (h : p ∈ s.nearPairs items) :
    p.first < items.length ∧ p.second < items.length := by
  have hindex : ∀ b j, (b, j) ∈ items.zipIdx.mergeSort (fun x y => s.before x.1 y.1) →
      j < items.length := by
    intro b j hj
    have hj := List.mk_mem_zipIdx_iff_getElem?.mp (List.mem_mergeSort.mp hj)
    exact (List.getElem?_eq_some_iff.mp hj).1
  obtain ⟨a, i, b, j, hi, hj, rfl⟩ := exists_of_mem_pairsInOrder (List.mem_mergeSort.mp h)
  have hi := hindex a i hi
  have hj := hindex b j hj
  exact ⟨Nat.lt_of_le_of_lt (Nat.min_le_left i j) hi, Nat.max_lt.mpr ⟨hi, hj⟩⟩

end Interchange.Sweep
