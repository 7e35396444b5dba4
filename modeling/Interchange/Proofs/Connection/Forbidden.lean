import Interchange.Proofs.Connection.Index
import Mathlib.Algebra.BigOperators.Finprod

/-!
# Forbidden connections

The index counts a forbidden connection and does not hold it. Of the others none is lost and none
doubled: each of them is found under its source, as often as it has been registered, and nowhere
else (`ConnectionIndex.count_lookup_ofList`), so that the lookups of all sources add up to the size
of the index (`ConnectionIndex.size_eq_finsum_length_lookup`).

What the index holds is therefore decided by the connections that are allowed, in their order
(`ConnectionIndex.lookup_ofList_eq`). Forbidden ones may be put anywhere between them
(`PutsBetween`) without any lookup or boarding being changed.
-/

namespace Interchange

/-- The connections that are not forbidden. -/
def allowed (cs : List Connection) : List Connection :=
  cs.filter fun c => c.rule.priority ≠ .notAllowed

/-- **Putting forbidden ones between.** The second list is the first one with forbidden connections
put in, at any places. -/
inductive PutsBetween : List Connection → List Connection → Prop where
  | nil : PutsBetween [] []
  | keep {cs cs' : List Connection} (c : Connection) : PutsBetween cs cs' →
      PutsBetween (c :: cs) (c :: cs')
  | put {cs cs' : List Connection} {c : Connection} : c.rule.priority = .notAllowed →
      PutsBetween cs cs' → PutsBetween cs (c :: cs')

variable {cs cs' : List Connection} {c : Connection}

theorem mem_allowed_iff : c ∈ allowed cs ↔ c ∈ cs ∧ c.rule.priority ≠ .notAllowed := by
  rw [allowed, List.mem_filter, decide_eq_true_eq]

/-- Putting forbidden connections between others does not touch the allowed ones. -/
private theorem PutsBetween.allowed_eq (h : PutsBetween cs cs') : allowed cs' = allowed cs := by
  induction h with
  | nil => rfl
  | keep c _ ih =>
    rw [allowed, allowed, List.filter_cons, List.filter_cons, ← allowed, ← allowed, ih]
  | put hforbidden _ ih =>
    rw [allowed, List.filter_cons_of_neg (by simp [hforbidden]), ← allowed, ih]

namespace ConnectionIndex

/-- Under a source there are its allowed connections, in the order of the list. -/
theorem lookup_ofList_eq (cs : List Connection) (source : TripPosition) :
    (ofList cs).lookup source = (allowed cs).filter fun c => c.source = source := by
  rw [lookup_ofList, allowed, List.filter_filter]
  refine List.filter_congr fun c _ => ?_
  rw [ConnectionRule.isNotAllowed, Bool.and_comm, decide_not]

/-! ### Counting -/

/-- **Once for once.** A connection that is allowed is found under its source as often as it has
been registered, and nowhere else. -/
theorem count_lookup_ofList (hallowed : c.rule.priority ≠ .notAllowed) (source : TripPosition) :
    ((ofList cs).lookup source).count c = if c.source = source then cs.count c else 0 := by
  rw [lookup_ofList_eq]
  split_ifs with hsource
  · rw [List.count_filter (by simpa using hsource), allowed,
      List.count_filter (by simpa using hallowed)]
  · refine List.count_eq_zero.mpr fun hmem => hsource ?_
    simpa using (List.mem_filter.mp hmem).2

/-- The connections that are counted as held are the allowed ones. -/
theorem size_ofList (cs : List Connection) : (ofList cs).size = (allowed cs).length := by
  induction cs using List.reverseRecOn with
  | nil => rfl
  | append_singleton cs c ih =>
    rw [ofList_concat, add, allowed, List.filter_append, List.length_append, ← allowed, ← ih]
    by_cases hforbidden : c.rule.priority = .notAllowed
    · simp [ConnectionRule.isNotAllowed, hforbidden]
    · simp [ConnectionRule.isNotAllowed, hforbidden]

/-- An index of forbidden connections is empty. -/
theorem isEmpty_ofList_iff :
    (ofList cs).isEmpty = true ↔ ∀ c ∈ cs, c.rule.priority = .notAllowed := by
  rw [isEmpty, decide_eq_true_eq, size_ofList, List.length_eq_zero_iff, allowed,
    List.filter_eq_nil_iff]
  simp

/-- The sources at which something allowed leaves. -/
def sources (cs : List Connection) : List TripPosition := (allowed cs).map Connection.source

private theorem length_lookup_ofList (cs : List Connection) (source : TripPosition) :
    ((ofList cs).lookup source).length = (sources cs).count source := by
  rw [lookup_ofList_eq, sources, List.count, List.countP_map, List.countP_eq_length_filter]
  rfl

private theorem support_length_lookup (cs : List Connection) :
    Function.support (fun source => ((ofList cs).lookup source).length) ⊆
      (sources cs).toFinset := by
  intro source hsource
  rw [Function.mem_support, length_lookup_ofList] at hsource
  exact List.mem_toFinset.mpr (List.count_pos_iff.mp (Nat.pos_of_ne_zero hsource))

/-- **All lookups.** Together they have as many connections as the index says. -/
theorem size_eq_finsum_length_lookup (cs : List Connection) :
    (ofList cs).size = ∑ᶠ source, ((ofList cs).lookup source).length := by
  rw [finsum_eq_sum_of_support_subset _ (support_length_lookup cs)]
  calc (ofList cs).size = (sources cs).length := by rw [size_ofList, sources, List.length_map]
    _ = ∑ source ∈ (sources cs).toFinset, (sources cs).count source :=
      (sources cs).sum_toFinset_count_eq_length.symm
    _ = ∑ source ∈ (sources cs).toFinset, ((ofList cs).lookup source).length :=
      Finset.sum_congr rfl fun source _ => (length_lookup_ofList cs source).symm

/-- Connections are found under finitely many sources, so that their numbers can be added up. -/
private theorem finite_lookup_ne_nil (cs : List Connection) :
    {source | (ofList cs).lookup source ≠ []}.Finite := by
  refine (sources cs).toFinset.finite_toSet.subset fun source hsource => ?_
  exact support_length_lookup cs (mt List.length_eq_zero_iff.mp hsource)

/-! ### What the index holds -/

/-- A connection is found under its own source if it is allowed, and nowhere else. -/
theorem mem_lookup_ofList_iff {source : TripPosition} :
    c ∈ (ofList cs).lookup source ↔
      (c ∈ cs ∧ c.rule.priority ≠ .notAllowed) ∧ c.source = source := by
  rw [lookup_ofList_eq, List.mem_filter, mem_allowed_iff, decide_eq_true_eq]

/-- **Forbidden connections.** Under a source the index holds those connections of the list that
leave there and are not forbidden, in the order of the list. Each connection that is not forbidden
is held under one source and as often as it is in the list, the lookups of all sources have as many
connections as the index says, and together with the forbidden ones these are all. The index is
empty if all are forbidden. Putting forbidden connections into the list or taking them out of it
changes no lookup and no boarding. -/
theorem index_holds_allowed (cs : List Connection) :
    (∀ trip position, (ofList cs).lookup ⟨trip, position⟩ =
      cs.filter fun c => c.source = ⟨trip, position⟩ ∧ c.rule.priority ≠ .notAllowed) ∧
    (∀ c ∈ cs, c.rule.priority ≠ .notAllowed → ∃! source, c ∈ (ofList cs).lookup source) ∧
    (∀ c : Connection, c.rule.priority ≠ .notAllowed → ∀ source,
      ((ofList cs).lookup source).count c = if c.source = source then cs.count c else 0) ∧
    {source | (ofList cs).lookup source ≠ []}.Finite ∧
    (ofList cs).size = ∑ᶠ source, ((ofList cs).lookup source).length ∧
    (ofList cs).size + (ofList cs).forbidden = cs.length ∧
    ((ofList cs).isEmpty = true ↔ ∀ c ∈ cs, c.rule.priority = .notAllowed) ∧
    ∀ cs', PutsBetween cs cs' →
      (∀ source, (ofList cs').lookup source = (ofList cs).lookup source) ∧
      ∀ source alight earliest, (ofList cs').findBoarding source alight earliest =
        (ofList cs).findBoarding source alight earliest := by
  refine ⟨fun trip position => ?_, fun c hc hallowed => ?_,
    fun c hallowed => count_lookup_ofList hallowed, finite_lookup_ne_nil cs,
    size_eq_finsum_length_lookup cs, size_add_forbidden_ofList cs, isEmpty_ofList_iff,
    fun cs' hputs => ?_⟩
  · rw [lookup_ofList_eq, allowed, List.filter_filter]
    simp only [Bool.decide_and]
  · refine ⟨c.source, mem_lookup_ofList_iff.mpr ⟨⟨hc, hallowed⟩, rfl⟩, fun source hsource => ?_⟩
    exact (mem_lookup_ofList_iff.mp hsource).2.symm
  · -- both lists have the same allowed connections, and a boarding is found by a lookup
    have hlookup : ∀ source, (ofList cs').lookup source = (ofList cs).lookup source := by
      intro source
      rw [lookup_ofList_eq, lookup_ofList_eq, hputs.allowed_eq]
    refine ⟨hlookup, fun source alight earliest => ?_⟩
    rw [findBoarding, findBoarding, hlookup]

/-- A connection that is registered twice stays so between two that are forbidden. -/
theorem index_holds_allowed_twice :
    let regular : Connection :=
      ⟨⟨⟨"F", "A", by decide⟩, 2⟩, ⟨⟨"F", "B", by decide⟩, 0⟩, 0, .hms 10 5 0, .regular⟩
    let forbidden : Connection := { regular with rule := .notAllowed }
    let cs := [regular, regular]
    let cs' := [forbidden, regular, forbidden, regular]
    regular ∈ cs ∧ regular.rule.priority ≠ .notAllowed ∧ PutsBetween cs cs' ∧
    (∃! source, regular ∈ (ofList cs).lookup source) ∧
    ((ofList cs).lookup regular.source).count regular = 2 ∧
    ∀ source alight earliest, (ofList cs').findBoarding source alight earliest =
      (ofList cs).findBoarding source alight earliest := by
  intro regular forbidden cs cs'
  obtain ⟨-, hunique, hcount, -, -, -, -, hputs⟩ := index_holds_allowed cs
  have hmem : regular ∈ cs := List.mem_cons_self
  have hallowed : regular.rule.priority ≠ .notAllowed := by decide
  have hforbidden : forbidden.rule.priority = .notAllowed := rfl
  have hcs' : PutsBetween cs cs' :=
    .put hforbidden (.keep regular (.put hforbidden (.keep regular .nil)))
  refine ⟨hmem, hallowed, hcs', hunique regular hmem hallowed, ?_, (hputs cs' hcs').2⟩
  rw [hcount regular hallowed, if_pos rfl]
  decide

end ConnectionIndex

end Interchange
