import Interchange.Network.Proximity
import Interchange.Proofs.Checks
import Mathlib.Algebra.Order.Ring.Rat
import Mathlib.Data.List.Basic
import Mathlib.Tactic.Common

/-!
# The sweep and the full scan

The sweep finds the near pairs that the full scan finds, and in the same order
(`Sweep.nearPairs_eq_allNearPairs`). Three facts make it so.

* **Nothing is missed.** Behind an item that is out of reach everything is out of reach, so ending
  there leaves out only what is not near (`Sweep.pairsAhead_eq`).
* **The order of the items does not matter** to which pairs are found, since a pair is the same
  whichever of its items comes first (`Sweep.perm_pairsAmong`).
* **The order of the pairs is that of their indices**, in which the full scan finds them
  (`Sweep.pairwise_scan`).
-/

namespace Interchange

/-- Pairs by their first item, then by their second, none of them twice. -/
def NearPair.Precedes {δ : Type} (p q : NearPair δ) : Prop :=
  p.first < q.first ∨ p.first = q.first ∧ p.second < q.second

private theorem NearPair.le_iff {δ : Type} {p q : NearPair δ} :
    p.le q = true ↔ p.Precedes q ∨ p.first = q.first ∧ p.second = q.second := by
  simp only [NearPair.le, NearPair.Precedes, Bool.or_eq_true, Bool.and_eq_true, decide_eq_true_eq]
  omega

private theorem NearPair.le_trans {δ : Type} (p q r : NearPair δ) :
    p.le q = true → q.le r = true → p.le r = true := by
  simp only [NearPair.le, Bool.or_eq_true, Bool.and_eq_true, decide_eq_true_eq]
  omega

private theorem NearPair.eq_of_le_of_le {δ : Type} {p q : NearPair δ} (hpq : p.le q = true)
    (hqp : q.le p = true) : p.first = q.first ∧ p.second = q.second := by
  simp only [NearPair.le, Bool.or_eq_true, Bool.and_eq_true, decide_eq_true_eq] at *
  omega

private theorem NearPair.le_total {δ : Type} (p q : NearPair δ) : (p.le q || q.le p) = true := by
  simp only [NearPair.le, Bool.or_eq_true, Bool.and_eq_true, decide_eq_true_eq]
  omega

namespace Sweep

variable {α δ : Type} {s : Sweep α δ}

/-- **Measures.** The order of items and the reach of the sweep come from a measure of the items,
and items out of reach are not near. -/
structure Measured (s : Sweep α δ) (measure : α → ℚ) (reach : ℚ) (items : List α) : Prop where
  before_iff : ∀ a ∈ items, ∀ b ∈ items, s.before a b = true ↔ measure a ≤ measure b
  outOfReach_iff : ∀ a ∈ items, ∀ b ∈ items,
    s.outOfReach a b = true ↔ reach < measure b - measure a
  distance_comm : ∀ a ∈ items, ∀ b ∈ items, s.distance a b = s.distance b a
  not_near : ∀ a ∈ items, ∀ b ∈ items, s.outOfReach a b = true → s.near (s.distance a b) = false

/-- The near pair of two items with their indices, if they are near. -/
def pair? (s : Sweep α δ) (x y : α × Nat) : Option (NearPair δ) :=
  if s.near (s.distance x.1 y.1) then some ⟨min x.2 y.2, max x.2 y.2, s.distance x.1 y.1⟩ else none

/-- The near pairs of a list of items with their indices, each item paired with those behind it. -/
def pairsAmong (s : Sweep α δ) : List (α × Nat) → List (NearPair δ)
  | [] => []
  | x :: rest => rest.filterMap (s.pair? x) ++ s.pairsAmong rest

/-! ### Nothing is missed -/

/-- **Nothing is missed.** Behind the first item out of reach nothing is near. -/
theorem pairsAhead_eq {a : α} {i : Nat} {rest : List (α × Nat)}
    (hreach : rest.Pairwise fun x y => s.outOfReach a x.1 = true → s.outOfReach a y.1 = true)
    (hfar : ∀ x ∈ rest, s.outOfReach a x.1 = true → s.near (s.distance a x.1) = false) :
    s.pairsAhead a i rest = rest.filterMap (s.pair? (a, i)) := by
  induction rest with
  | nil => rfl
  | cons x rest ih =>
    obtain ⟨b, j⟩ := x
    obtain ⟨hbehind, hreach⟩ := List.pairwise_cons.mp hreach
    have ih := ih hreach fun x hx => hfar x (List.mem_cons_of_mem _ hx)
    rw [pairsAhead]
    by_cases hout : s.outOfReach a b = true
    · rw [if_pos hout, eq_comm, List.filterMap_eq_nil_iff]
      intro x hx
      have houtx : s.outOfReach a x.1 = true := by
        rcases List.mem_cons.mp hx with rfl | hx
        · exact hout
        · exact hbehind x hx hout
      rw [pair?, hfar x hx houtx]
      rfl
    · rw [if_neg hout, List.filterMap_cons, ← ih]
      cases hnear : s.near (s.distance a b) <;> simp [pair?, hnear]

/-- Items that ascend in the measure are swept completely. -/
private theorem pairsInOrder_eq {measure : α → ℚ} {reach : ℚ} {items : List α}
    (h : s.Measured measure reach items) {xs : List (α × Nat)} (hmem : ∀ x ∈ xs, x.1 ∈ items)
    (hasc : xs.Pairwise fun x y => measure x.1 ≤ measure y.1) :
    s.pairsInOrder xs = s.pairsAmong xs := by
  induction xs with
  | nil => rfl
  | cons x xs ih =>
    obtain ⟨a, i⟩ := x
    obtain ⟨ha, hmem⟩ := List.forall_mem_cons.mp hmem
    obtain ⟨-, hasc⟩ := List.pairwise_cons.mp hasc
    have hreach : xs.Pairwise fun x y => s.outOfReach a x.1 = true → s.outOfReach a y.1 = true := by
      refine hasc.imp_of_mem fun {x y} hx hy hle hout => ?_
      rw [h.outOfReach_iff a ha _ (hmem x hx)] at hout
      rw [h.outOfReach_iff a ha _ (hmem y hy)]
      exact lt_of_lt_of_le hout (sub_le_sub_right hle _)
    rw [pairsInOrder, pairsAmong, ih hmem hasc,
      pairsAhead_eq hreach fun x hx => h.not_near a ha x.1 (hmem x hx)]

/-! ### The order of the items -/

/-- Which of two items is looked at first makes no difference to the pair that they form. -/
private theorem pair?_comm {x y : α × Nat} (h : s.distance x.1 y.1 = s.distance y.1 x.1) :
    s.pair? x y = s.pair? y x := by
  rw [pair?, pair?, h, Nat.min_comm, Nat.max_comm]

/-- **Rearranging.** The items can be paired in any order. -/
theorem perm_pairsAmong {xs ys : List (α × Nat)} (hperm : xs.Perm ys)
    (hcomm : ∀ x ∈ xs, ∀ y ∈ xs, s.pair? x y = s.pair? y x) :
    (s.pairsAmong xs).Perm (s.pairsAmong ys) := by
  induction hperm with
  | nil => exact .refl _
  | cons x hperm ih =>
    have hrest := ih fun y hy z hz =>
      hcomm y (List.mem_cons_of_mem _ hy) z (List.mem_cons_of_mem _ hz)
    exact (hperm.filterMap _).append hrest
  | swap x y rest =>
    -- the pair of the two items is found first in both orders, then the pairs of each with the rest
    have hxy : s.pair? y x = s.pair? x y := hcomm y (by simp) x (by simp)
    simp only [pairsAmong, List.filterMap_cons, hxy]
    cases s.pair? x y with
    | none => exact List.perm_append_comm_assoc _ _ _
    | some p => exact (List.perm_append_comm_assoc _ _ _).cons p
  | trans hperm _ ih ih' =>
    refine (ih hcomm).trans (ih' fun x hx y hy => ?_)
    exact hcomm x (hperm.mem_iff.mpr hx) y (hperm.mem_iff.mpr hy)

/-! ### The order of the pairs -/

/-- Items with ascending indices form their pairs in order, with the lower index first. -/
private theorem scan_eq {xs : List (α × Nat)} (hasc : xs.Pairwise fun x y => x.2 < y.2) :
    s.scan xs = s.pairsAmong xs := by
  induction xs with
  | nil => rfl
  | cons x xs ih =>
    obtain ⟨hlt, hasc⟩ := List.pairwise_cons.mp hasc
    rw [scan, pairsAmong, ih hasc, scanAhead]
    congr 1
    refine List.filterMap_congr fun y hy => ?_
    have hle := Nat.le_of_lt (hlt y hy)
    rw [pair?, Nat.min_eq_left hle, Nat.max_eq_right hle]

private theorem mem_scanAhead_iff {a : α} {i : Nat} {rest : List (α × Nat)} {p : NearPair δ} :
    p ∈ s.scanAhead a i rest ↔
      ∃ y ∈ rest, s.near (s.distance a y.1) = true ∧ p = ⟨i, y.2, s.distance a y.1⟩ := by
  simp only [scanAhead, List.mem_filterMap, Option.ite_none_right_eq_some, Option.some.injEq,
    eq_comm (a := p)]

/-- The full scan finds the near pairs, and those only. -/
private theorem mem_scan_iff {xs : List (α × Nat)} (hasc : xs.Pairwise fun x y => x.2 < y.2)
    {p : NearPair δ} :
    p ∈ s.scan xs ↔ ∃ x ∈ xs, ∃ y ∈ xs, x.2 < y.2 ∧ s.near (s.distance x.1 y.1) = true ∧
      p = ⟨x.2, y.2, s.distance x.1 y.1⟩ := by
  induction xs with
  | nil => simp [scan]
  | cons x xs ih =>
    obtain ⟨hlt, hasc⟩ := List.pairwise_cons.mp hasc
    rw [scan, List.mem_append, mem_scanAhead_iff, ih hasc]
    constructor
    · rintro (⟨y, hy, hp⟩ | ⟨x', hx', y, hy, hp⟩)
      · exact ⟨x, List.mem_cons_self, y, List.mem_cons_of_mem _ hy, hlt y hy, hp⟩
      · exact ⟨x', List.mem_cons_of_mem _ hx', y, List.mem_cons_of_mem _ hy, hp⟩
    · rintro ⟨x', hx', y, hy, hxy, hp⟩
      rcases List.mem_cons.mp hx' with rfl | hx'rest <;>
        rcases List.mem_cons.mp hy with rfl | hyrest
      · exact absurd hxy (Nat.lt_irrefl _)
      · exact .inl ⟨y, hyrest, hp⟩
      · exact absurd hxy (Nat.lt_asymm (hlt x' hx'rest))
      · exact .inr ⟨x', hx'rest, y, hyrest, hxy, hp⟩

/-- **In order.** The full scan finds the pairs in the order of their indices. -/
theorem pairwise_scan {xs : List (α × Nat)} (hasc : xs.Pairwise fun x y => x.2 < y.2) :
    (s.scan xs).Pairwise NearPair.Precedes := by
  induction xs with
  | nil => exact .nil
  | cons x xs ih =>
    obtain ⟨hlt, hasc⟩ := List.pairwise_cons.mp hasc
    refine List.pairwise_append.mpr ⟨?_, ih hasc, ?_⟩
    · refine List.Pairwise.filterMap _ (fun y z hyz p hp q hq => ?_) hasc
      simp only [Option.ite_none_right_eq_some, Option.some.injEq] at hp hq
      obtain ⟨-, rfl⟩ := hp
      obtain ⟨-, rfl⟩ := hq
      exact .inr ⟨rfl, hyz⟩
    · intro p hp q hq
      obtain ⟨y, -, -, rfl⟩ := mem_scanAhead_iff.mp hp
      obtain ⟨x', hx', -, -, -, -, rfl⟩ := (mem_scan_iff hasc).mp hq
      exact .inl (hlt x' hx')

section FullScan

variable {items : List α} {p q : NearPair δ}

/-- The pairs of the full scan come in order, and each once. -/
theorem pairwise_allNearPairs (s : Sweep α δ) (items : List α) :
    (s.allNearPairs items).Pairwise NearPair.Precedes := pairwise_scan (pairwise_zipIdx items)

/-- **The full scan** finds all items that are near each other, by their indices. -/
theorem mem_allNearPairs_iff :
    p ∈ s.allNearPairs items ↔ p.first < p.second ∧ ∃ a b, items[p.first]? = some a ∧
      items[p.second]? = some b ∧ p.distance = s.distance a b ∧ s.near p.distance = true := by
  rw [allNearPairs, mem_scan_iff (pairwise_zipIdx items)]
  constructor
  · rintro ⟨⟨a, i⟩, hi, ⟨b, j⟩, hj, hlt, hnear, rfl⟩
    rw [List.mk_mem_zipIdx_iff_getElem?] at hi hj
    exact ⟨hlt, a, b, hi, hj, rfl, hnear⟩
  · rintro ⟨hlt, a, b, hi, hj, hdistance, hnear⟩
    rw [← List.mk_mem_zipIdx_iff_getElem?] at hi hj
    rw [hdistance] at hnear
    exact ⟨_, hi, _, hj, hlt, hnear, by rw [← hdistance]⟩

/-- A pair is given by its indices. -/
private theorem eq_of_mem_allNearPairs (hp : p ∈ s.allNearPairs items)
    (hq : q ∈ s.allNearPairs items)
    (hfirst : p.first = q.first) (hsecond : p.second = q.second) : p = q := by
  obtain ⟨-, a, b, ha, hb, hpd, -⟩ := mem_allNearPairs_iff.mp hp
  obtain ⟨-, a', b', ha', hb', hqd, -⟩ := mem_allNearPairs_iff.mp hq
  rw [hfirst, ha', Option.some.injEq] at ha
  rw [hsecond, hb', Option.some.injEq] at hb
  obtain ⟨i, j, d⟩ := p
  obtain ⟨i', j', d'⟩ := q
  simp only at hfirst hsecond hpd hqd
  rw [hfirst, hsecond, hpd, hqd, ha, hb]

end FullScan

/-! ### The sweep -/

variable {measure : α → ℚ} {reach : ℚ} {items : List α}

/-- Sorting brings items into the order of their measure. -/
private theorem pairwise_sorted (h : s.Measured measure reach items) :
    (items.zipIdx.mergeSort fun x y => s.before x.1 y.1).Pairwise
      fun x y => measure x.1 ≤ measure y.1 := by
  let le (x y : α × Nat) : Bool := measure x.1 ≤ measure y.1
  -- among the items the order is the one of the measure, which is total
  have hbefore : ∀ x ∈ items.zipIdx, ∀ y ∈ items.zipIdx, s.before x.1 y.1 = le x y := by
    intro x hx y hy
    rw [Bool.eq_iff_iff, decide_eq_true_eq]
    exact h.before_iff _ (List.fst_mem_of_mem_zipIdx hx) _ (List.fst_mem_of_mem_zipIdx hy)
  have hsort :
      (items.zipIdx.mergeSort fun x y => s.before x.1 y.1) = items.zipIdx.mergeSort le := by
    have hmap := List.map_mergeSort (f := id) hbefore
    rwa [List.map_id, List.map_id] at hmap
  have htrans : ∀ x y z, le x y = true → le y z = true → le x z = true := by
    simp only [le, decide_eq_true_eq]
    exact fun x y z => le_trans
  have htotal : ∀ x y, (le x y || le y x) = true := by
    simp only [le, Bool.or_eq_true, decide_eq_true_eq]
    exact fun x y => le_total _ _
  rw [hsort]
  exact (List.pairwise_mergeSort htrans htotal items.zipIdx).imp of_decide_eq_true

/-- The sweep finds the pairs of the full scan. -/
private theorem perm_pairsInOrder (h : s.Measured measure reach items) :
    (s.pairsInOrder (items.zipIdx.mergeSort fun x y => s.before x.1 y.1)).Perm
      (s.allNearPairs items) := by
  have hitem : ∀ x ∈ items.zipIdx.mergeSort fun x y => s.before x.1 y.1, x.1 ∈ items :=
    fun x hx => List.fst_mem_of_mem_zipIdx (List.mem_mergeSort.mp hx)
  rw [pairsInOrder_eq h hitem (pairwise_sorted h), allNearPairs, scan_eq (pairwise_zipIdx items)]
  refine perm_pairsAmong (List.mergeSort_perm _ _) fun x hx y hy => pair?_comm ?_
  exact h.distance_comm _ (hitem x hx) _ (hitem y hy)

/-- **Sweeping.** The sweep finds the pairs of the full scan, in the same order. -/
theorem nearPairs_eq_allNearPairs (h : s.Measured measure reach items) :
    s.nearPairs items = s.allNearPairs items := by
  have hperm : (s.nearPairs items).Perm (s.allNearPairs items) :=
    (List.mergeSort_perm _ _).trans (perm_pairsInOrder h)
  have hsorted : (s.nearPairs items).Pairwise fun p q => p.le q = true := by
    rw [nearPairs]
    exact List.pairwise_mergeSort NearPair.le_trans NearPair.le_total _
  have hscan : (s.allNearPairs items).Pairwise fun p q => p.le q = true :=
    (pairwise_allNearPairs s items).imp fun hpq => NearPair.le_iff.mpr (.inl hpq)
  refine hperm.eq_of_pairwise (fun p q hp hq hpq hqp => ?_) hsorted hscan
  obtain ⟨hfirst, hsecond⟩ := NearPair.eq_of_le_of_le hpq hqp
  exact eq_of_mem_allNearPairs (hperm.mem_iff.mp hp) hq hfirst hsecond

end Sweep

end Interchange
