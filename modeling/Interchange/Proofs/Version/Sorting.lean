import Interchange.Proofs.Checks
import Interchange.Proofs.Version.Selection

/-!
# Sorted versions

The latest of several can be found in three ways: as the greatest version, as the entity at which a
search for a greater version ends, and at the end of the sorted list. They agree
(`latest_versions_agree`).

Entities with equal versions may be told apart by nothing but their positions, so the positions are
sorted along (`StablySorted`). Sorting is stable: it leaves the entities of one version in the order
of the list (`StablySorted.filter_eq`), and those of the latest version stand together at the end
(`StablySorted.exists_append`). The search finds the first of them and not the last.
-/

namespace Interchange

variable {α : Type} {rank : α → Int} {as : List α} {placed : List (α × Nat)} {v : Int}

/-! ### Stable sorting -/

/-- **Stable sorting.** `placed` has the elements of `as` with their positions, by ascending rank,
and elements of equal rank by ascending position. -/
structure StablySorted (rank : α → Int) (as : List α) (placed : List (α × Nat)) : Prop where
  perm : placed.Perm as.zipIdx
  ascending : placed.Pairwise fun p q => rank p.1 ≤ rank q.1
  stable : placed.Pairwise fun p q => rank p.1 = rank q.1 → p.2 < q.2

/-- Positions decide between equal ranks. -/
private theorem zipIdxLE_iff {p q : α × Nat} :
    List.zipIdxLE (fun a b => rank a ≤ rank b) p q = true ↔
      rank p.1 < rank q.1 ∨ rank p.1 = rank q.1 ∧ p.2 ≤ q.2 := by
  rw [List.zipIdxLE]
  by_cases hpq : rank p.1 ≤ rank q.1
  · by_cases hqp : rank q.1 ≤ rank p.1
    · simp only [hpq, hqp, decide_true, if_true, decide_eq_true_eq]
      omega
    · simp only [hpq, hqp, decide_true, decide_false, if_true, Bool.false_eq_true, if_false,
        true_iff]
      exact .inl (Int.not_le.mp hqp)
  · simp only [hpq, decide_false, Bool.false_eq_true, if_false, false_iff]
    omega

/-- What comes out of the sort is stably sorted, with the place of each element. -/
theorem exists_stablySorted (rank : α → Int) (as : List α) :
    ∃ placed, StablySorted rank as placed ∧ placed.map Prod.fst = sortByVersion rank as := by
  let le (a b : α) : Bool := rank a ≤ rank b
  have htrans : ∀ a b c, le a b = true → le b c = true → le a c = true := by
    intro a b c hab hbc
    simp only [le, decide_eq_true_eq] at hab hbc ⊢
    exact Int.le_trans hab hbc
  have htotal : ∀ a b, (le a b || le b a) = true := by
    intro a b
    simp only [le, Bool.or_eq_true, decide_eq_true_eq]
    exact Int.le_total _ _
  have hperm := as.zipIdx.mergeSort_perm (List.zipIdxLE le)
  have hsorted := as.zipIdx.pairwise_mergeSort (List.zipIdxLE_trans htrans)
    (List.zipIdxLE_total htotal)
  -- no position comes twice
  have hne : (as.zipIdx.mergeSort (List.zipIdxLE le)).Pairwise fun p q => p.2 ≠ q.2 :=
    hperm.symm.pairwise ((pairwise_zipIdx as).imp Nat.ne_of_lt) fun h => h.symm
  refine ⟨as.zipIdx.mergeSort (List.zipIdxLE le), ⟨hperm, ?_, ?_⟩, List.mergeSort_zipIdx⟩
  · refine hsorted.imp fun {p q} hpq => ?_
    rcases zipIdxLE_iff.mp hpq with hlt | ⟨heq, -⟩
    · exact Int.le_of_lt hlt
    · exact Int.le_of_eq heq
  · refine hsorted.imp₂ (fun p q hpq hne heq => ?_) hne
    rcases zipIdxLE_iff.mp hpq with hlt | ⟨-, hle⟩
    · exact absurd heq (Int.ne_of_lt hlt)
    · exact Nat.lt_of_le_of_ne hle hne

/-- What ranks highest stands at the end of a list that ascends. -/
private theorem filter_append_filter_of_pairwise {β : Type} {f : β → Int} {bs : List β}
    (hasc : bs.Pairwise fun b c => f b ≤ f c) (hle : ∀ b ∈ bs, f b ≤ v) :
    bs.filter (fun b => f b < v) ++ bs.filter (fun b => f b = v) = bs := by
  induction bs with
  | nil => rfl
  | cons b bs ih =>
    obtain ⟨hb, hasc⟩ := List.pairwise_cons.mp hasc
    obtain ⟨hbv, hle⟩ := List.forall_mem_cons.mp hle
    rcases Int.lt_or_eq_of_le hbv with hlt | rfl
    · rw [List.filter_cons_of_pos (by simpa using hlt),
        List.filter_cons_of_neg (by simpa using Int.ne_of_lt hlt), List.cons_append, ih hasc hle]
    · -- nothing that comes later ranks lower
      have hnone : bs.filter (fun c => f c < f b) = [] := by
        rw [List.filter_eq_nil_iff]
        intro c hc
        simpa using hb c hc
      have hall := ih hasc hle
      rw [hnone, List.nil_append] at hall
      rw [List.filter_cons_of_neg (by simp), hnone, List.nil_append,
        List.filter_cons_of_pos (by simp), hall]

namespace StablySorted

/-- The entities of one rank stay in the order of the list. -/
theorem filter_eq (h : StablySorted rank as placed) (v : Int) :
    placed.filter (fun p => rank p.1 = v) = as.zipIdx.filter fun p => rank p.1 = v := by
  have hplaced : (placed.filter fun p => rank p.1 = v).Pairwise fun p q => p.2 < q.2 := by
    rw [List.pairwise_filter]
    refine h.stable.imp fun {p q} hpq hp hq => hpq ?_
    rw [decide_eq_true_eq] at hp hq
    exact hp.trans hq.symm
  have hgiven := (pairwise_zipIdx as).filter fun p => rank p.1 = v
  exact (h.perm.filter _).eq_of_pairwise
    (fun p q _ _ hpq hqp => absurd (Nat.lt_trans hpq hqp) (Nat.lt_irrefl _)) hplaced hgiven

/-- **The end.** The entities of the greatest rank stand at the end, in the order of the list. -/
theorem exists_append (h : StablySorted rank as placed) (hle : ∀ a ∈ as, rank a ≤ v) :
    ∃ front, placed = front ++ as.zipIdx.filter (fun p => rank p.1 = v) ∧
      ∀ p ∈ front, rank p.1 < v := by
  have hbound : ∀ p ∈ placed, rank p.1 ≤ v := fun p hp =>
    hle p.1 (List.fst_mem_of_mem_zipIdx (h.perm.mem_iff.mp hp))
  refine ⟨placed.filter fun p => rank p.1 < v, ?_, fun p hp => ?_⟩
  · rw [← h.filter_eq, filter_append_filter_of_pairwise h.ascending hbound]
  · simpa using (List.mem_filter.mp hp).2

end StablySorted

/-! ### The first and the last of a rank -/

/-- **The last.** The element at position `i` has the property, and no later one has it. -/
structure LastAt (P : α → Prop) (as : List α) (i : Nat) (a : α) : Prop where
  there : as[i]? = some a
  holds : P a
  last : ∀ (j : Nat) b, as[j]? = some b → P b → j ≤ i

variable {a : α} {i : Nat}

private theorem firstAt_of_head?
    (h : (as.zipIdx.filter fun p => rank p.1 = v).head? = some (a, i)) :
    FirstAt (fun e => rank e = v) as i a := by
  rw [List.head?_filter] at h
  obtain ⟨k, hk⟩ := find?_eq_some_iff_firstAt.mp h
  simp only [decide_eq_true_eq] at hk
  obtain ⟨rfl, hfirst⟩ := (firstAt_zipIdx_iff (P := fun e => rank e = v)).mp hk
  exact hfirst

private theorem mem_filter_zipIdx_iff :
    (a, i) ∈ as.zipIdx.filter (fun p => rank p.1 = v) ↔ as[i]? = some a ∧ rank a = v := by
  rw [List.mem_filter, List.mem_zipIdx_iff_getElem?, decide_eq_true_eq]

private theorem lastAt_of_getLast?
    (h : (as.zipIdx.filter fun p => rank p.1 = v).getLast? = some (a, i)) :
    LastAt (fun e => rank e = v) as i a := by
  obtain ⟨before, hbefore⟩ := List.getLast?_eq_some_iff.mp h
  have hmem : (a, i) ∈ as.zipIdx.filter fun p => rank p.1 = v := List.mem_of_getLast? h
  obtain ⟨hthere, hrank⟩ := mem_filter_zipIdx_iff.mp hmem
  refine ⟨hthere, hrank, fun j b hj hb => ?_⟩
  have hpairwise := (pairwise_zipIdx as).filter fun p => rank p.1 = v
  have hb : (b, j) ∈ as.zipIdx.filter fun p => rank p.1 = v := mem_filter_zipIdx_iff.mpr ⟨hj, hb⟩
  rw [hbefore] at hpairwise hb
  rcases List.mem_append.mp hb with hb | hb
  · exact Nat.le_of_lt ((List.pairwise_append.mp hpairwise).2.2 _ hb _ List.mem_cons_self)
  · exact Nat.le_of_eq (congrArg Prod.snd (List.mem_singleton.mp hb))

/-! ### The latest version -/

/-- The latest version is the greatest. -/
theorem max?_eq_latestVersion {versions : List Int} (hne : versions ≠ []) :
    versions.max? = some (latestVersion versions) := by
  cases versions with
  | nil => exact absurd rfl hne
  | cons w ws => exact List.max?_cons'

/-- The search for a greater version ends at the first entity of the latest version. -/
private theorem latestBy_eq_some_of_firstAt {version : α → Int}
    (h : FirstAt (fun e => version e = latestVersion (as.map version)) as i a) :
    latestBy version as = some a := by
  have hne : as.map version ≠ [] := List.ne_nil_of_mem (List.mem_map_of_mem h.mem)
  have hmax := (List.max?_eq_some_iff.mp (max?_eq_latestVersion hne)).2
  have hgreatest : FirstGreatest (fun _ => true = true) version as i a := by
    refine ⟨h.there, rfl, fun b hb _ => ?_, fun j b hj _ heq => h.first j b hj (heq.trans h.holds)⟩
    rw [h.holds]
    exact hmax _ (List.mem_map_of_mem hb)
  rw [latestBy_eq_argmax, ← List.filter_true as]
  exact argmax_filter_eq_some_iff.mpr ⟨i, hgreatest⟩

/-- **Latest versions.** Of several entities the latest version is the greatest, and the search ends
at the first entity that has it. In the stably sorted list the entities that have it stand together
at the end; the first of them there is the one that the search finds, and the last of them is the
last one of the list. -/
theorem latest_versions_agree {α : Type} (tag : α → VersionTag) {as : List α} (hne : as ≠ []) :
    let version : α → Int := fun e => (tag e).resolve
    let latest := latestVersion (as.map version)
    (latest ∈ as.map version ∧ ∀ w ∈ as.map version, w ≤ latest) ∧
    ∃ (a b : α) (i j : Nat) (front run : List (α × Nat)),
      FirstAt (fun e => version e = latest) as i a ∧ latestBy version as = some a ∧
      LastAt (fun e => version e = latest) as j b ∧
      StablySorted version as (front ++ run) ∧
      (front ++ run).map Prod.fst = sortByVersion version as ∧
      (∀ p ∈ front, version p.1 < latest) ∧ (∀ p ∈ run, version p.1 = latest) ∧
      run.head? = some (a, i) ∧ run.getLast? = some (b, j) := by
  intro version latest
  have hversions : as.map version ≠ [] := fun hnil => hne (List.map_eq_nil_iff.mp hnil)
  have hmax : latest ∈ as.map version ∧ ∀ w ∈ as.map version, w ≤ latest :=
    List.max?_eq_some_iff.mp (max?_eq_latestVersion hversions)
  refine ⟨hmax, ?_⟩
  -- the run is not empty, so it has a first and a last entity
  obtain ⟨e, he, hlatest⟩ := List.mem_map.mp hmax.1
  obtain ⟨k, hk⟩ := List.mem_iff_getElem?.mp he
  have hrun : (e, k) ∈ as.zipIdx.filter fun p => version p.1 = latest :=
    mem_filter_zipIdx_iff.mpr ⟨hk, hlatest⟩
  obtain ⟨⟨a, i⟩, ha⟩ := Option.isSome_iff_exists.mp
    (List.isSome_head?.mpr (List.ne_nil_of_mem hrun))
  obtain ⟨⟨b, j⟩, hb⟩ := Option.isSome_iff_exists.mp
    (List.getLast?_isSome.mpr (List.ne_nil_of_mem hrun))
  -- the sorted list is what ranks lower, followed by the run
  obtain ⟨placed, hsorted, hplaced⟩ := exists_stablySorted version as
  obtain ⟨front, rfl, hfront⟩ := hsorted.exists_append
    (fun a ha => hmax.2 _ (List.mem_map_of_mem ha))
  exact ⟨a, b, i, j, front, _, firstAt_of_head? ha,
    latestBy_eq_some_of_firstAt (firstAt_of_head? ha), lastAt_of_getLast? hb, hsorted, hplaced,
    hfront, fun p hp => by simpa using (List.mem_filter.mp hp).2, ha, hb⟩

/-- Two tags stand for the latest version: the search finds the first of them, and the other one is
last in order. -/
theorem latest_versions_agree_tie :
    let tags : List VersionTag := [⟨"2"⟩, ⟨"v10"⟩, .any, ⟨"10"⟩, ⟨"draft"⟩]
    tags ≠ [] ∧ latestBy (fun e => e.resolve) tags = some ⟨"v10"⟩ ∧
      (sortByVersion (fun e => e.resolve) tags).getLast? = some ⟨"10"⟩ := by
  intro tags
  have hne : tags ≠ [] := List.cons_ne_nil _ _
  obtain ⟨-, a, b, i, j, front, run, -, -, hlast, -, hsorted, -, -, -, hrun⟩ :=
    latest_versions_agree (fun e => e) hne
  refine ⟨hne, by decide, ?_⟩
  have hthree : 3 ≤ j := hlast.last 3 ⟨"10"⟩ rfl (by decide)
  have hbound : j < 5 := (List.getElem?_eq_some_iff.mp hlast.there).1
  have hb : b = ⟨"10"⟩ := by
    interval_cases j
    · exact (Option.some.inj hlast.there).symm
    · obtain rfl := Option.some.inj hlast.there
      exact absurd hlast.holds (by decide)
  change (front ++ run).map Prod.fst = sortByVersion (fun e => e.resolve) tags at hsorted
  rw [← hsorted, List.getLast?_map, List.getLast?_append, hrun, hb]
  rfl

end Interchange
