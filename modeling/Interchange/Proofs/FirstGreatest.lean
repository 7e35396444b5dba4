import Mathlib.Data.List.Induction
import Mathlib.Data.List.MinMax

/-!
# The first of the greatest

A search that goes through a list once and replaces what it keeps only by something strictly
greater ends with `List.argmax`. `FirstGreatest` says by positions which element that is if only
some of the elements are eligible: none of them is greater, and none that is as great comes before
it (`argmax_filter_eq_some_iff`). Ranks that are to be least are compared in the dual order
(`FirstLeast`).
-/

namespace Interchange

/-- **The first of the greatest.** The element at position `i` is eligible, no eligible one ranks
higher, and no earlier one ranks as high. -/
structure FirstGreatest {α β : Type} [LE β] (Eligible : α → Prop) (rank : α → β) (as : List α)
    (i : Nat) (a : α) : Prop where
  there : as[i]? = some a
  eligible : Eligible a
  greatest : ∀ b ∈ as, Eligible b → rank b ≤ rank a
  first : ∀ (j : Nat) b, as[j]? = some b → Eligible b → rank b = rank a → i ≤ j

/-- **The first of the least**, by their ranks. -/
abbrev FirstLeast {α β : Type} [LE β] (Eligible : α → Prop) (rank : α → β) (as : List α) (i : Nat)
    (a : α) : Prop :=
  FirstGreatest Eligible (fun a => OrderDual.toDual (rank a)) as i a

variable {α β : Type} [LinearOrder β] {rank : α → β} {as : List α} {i j : Nat} {a b : α}

namespace FirstGreatest

variable {Eligible : α → Prop}

theorem lt_length (h : FirstGreatest Eligible rank as i a) : i < as.length :=
  (List.getElem?_eq_some_iff.mp h.there).1

theorem mem (h : FirstGreatest Eligible rank as i a) : a ∈ as := List.mem_of_getElem? h.there

/-- There is at most one such position. -/
private theorem position_unique (h : FirstGreatest Eligible rank as i a)
    (h' : FirstGreatest Eligible rank as j b) : i = j := by
  have hrank : rank a = rank b :=
    le_antisymm (h'.greatest a h.mem h.eligible) (h.greatest b h'.mem h'.eligible)
  exact Nat.le_antisymm (h.first j b h'.there h'.eligible hrank.symm)
    (h'.first i a h.there h.eligible hrank)

theorem unique (h : FirstGreatest Eligible rank as i a)
    (h' : FirstGreatest Eligible rank as j b) : a = b := by
  obtain rfl := h.position_unique h'
  exact Option.some.inj (h.there.symm.trans h'.there)

/-- It only matters which of the elements are eligible. -/
theorem of_forall_iff {Eligible' : α → Prop} (h : FirstGreatest Eligible rank as i a)
    (hiff : ∀ b ∈ as, Eligible b ↔ Eligible' b) : FirstGreatest Eligible' rank as i a where
  there := h.there
  eligible := (hiff a h.mem).mp h.eligible
  greatest b hb hfits := h.greatest b hb ((hiff b hb).mpr hfits)
  first j b hj hfits := h.first j b hj ((hiff b (List.mem_of_getElem? hj)).mpr hfits)

/-- One more element at the end changes nothing, unless it is eligible and ranks higher. -/
theorem concat (h : FirstGreatest Eligible rank as i a) (hb : Eligible b → rank b ≤ rank a) :
    FirstGreatest Eligible rank (as ++ [b]) i a where
  there := (List.getElem?_append_left h.lt_length).trans h.there
  eligible := h.eligible
  greatest := by
    intro c hc hfits
    rcases List.mem_append.mp hc with hc | hc
    · exact h.greatest c hc hfits
    · obtain rfl := List.mem_singleton.mp hc
      exact hb hfits
  first := by
    intro j c hj hfits hrank
    rcases Nat.lt_or_ge j as.length with hlt | hge
    · rw [List.getElem?_append_left hlt] at hj
      exact h.first j c hj hfits hrank
    · exact Nat.le_of_lt (Nat.lt_of_lt_of_le h.lt_length hge)

/-- An element at the end is the first of the greatest if it ranks higher than all others. -/
private theorem last (hb : Eligible b) (hgreater : ∀ c ∈ as, Eligible c → rank c < rank b) :
    FirstGreatest Eligible rank (as ++ [b]) as.length b where
  there := List.getElem?_concat_length
  eligible := hb
  greatest := by
    intro c hc hfits
    rcases List.mem_append.mp hc with hc | hc
    · exact le_of_lt (hgreater c hc hfits)
    · exact le_of_eq (congrArg rank (List.mem_singleton.mp hc))
  first := by
    intro j c hj hfits hrank
    rcases Nat.lt_or_ge j as.length with hlt | hge
    · rw [List.getElem?_append_left hlt] at hj
      exact absurd hrank (ne_of_lt (hgreater c (List.mem_of_getElem? hj) hfits))
    · exact hge

end FirstGreatest

/-! ### Searching for it -/

variable {eligible : α → Bool}

/-- The `argmax` of a filtered list has a place in the list. -/
private theorem exists_firstGreatest_of_argmax (h : (as.filter eligible).argmax rank = some a) :
    ∃ i, FirstGreatest (eligible · = true) rank as i a := by
  induction as using List.reverseRecOn generalizing a with
  | nil => cases h
  | append_singleton as b ih =>
    rw [List.filter_append] at h
    by_cases hb : eligible b = true
    · rw [List.filter_cons_of_pos hb, List.filter_nil, List.argmax_concat] at h
      cases hbefore : (as.filter eligible).argmax rank with
      | none =>
        rw [hbefore] at h
        obtain rfl := Option.some.inj h
        have hnone := List.argmax_eq_none.mp hbefore
        exact ⟨as.length, .last hb fun c hc hfits =>
          absurd hfits (List.filter_eq_nil_iff.mp hnone c hc)⟩
      | some c =>
        rw [hbefore] at h
        obtain ⟨i, hc⟩ := ih hbefore
        -- a later one wins only if it ranks higher
        by_cases hlt : rank c < rank b
        · obtain rfl := Option.some.inj ((if_pos hlt).symm.trans h)
          exact ⟨as.length, .last hb fun d hd hfits =>
            lt_of_le_of_lt (hc.greatest d hd hfits) hlt⟩
        · obtain rfl := Option.some.inj ((if_neg hlt).symm.trans h)
          exact ⟨i, hc.concat fun _ => not_lt.mp hlt⟩
    · rw [List.filter_cons_of_neg hb, List.filter_nil, List.append_nil] at h
      obtain ⟨i, ha⟩ := ih h
      exact ⟨i, ha.concat fun hfits => absurd hfits hb⟩

/-- **Searching.** The search ends with the first of the greatest, if anything is eligible. -/
theorem argmax_filter_eq_some_iff :
    (as.filter eligible).argmax rank = some a ↔
      ∃ i, FirstGreatest (eligible · = true) rank as i a := by
  refine ⟨exists_firstGreatest_of_argmax, ?_⟩
  rintro ⟨i, ha⟩
  have hmem : a ∈ as.filter eligible := List.mem_filter.mpr ⟨ha.mem, ha.eligible⟩
  cases hmax : (as.filter eligible).argmax rank with
  | none =>
    rw [List.argmax_eq_none.mp hmax] at hmem
    cases hmem
  | some b =>
    obtain ⟨j, hb⟩ := exists_firstGreatest_of_argmax hmax
    rw [ha.unique hb]

/-- Searching for the least is searching in the dual order. -/
theorem argmin_filter_eq_some_iff :
    (as.filter eligible).argmin rank = some a ↔
      ∃ i, FirstLeast (eligible · = true) rank as i a := by
  have hdual : (as.filter eligible).argmin rank =
    (as.filter eligible).argmax fun a => OrderDual.toDual (rank a) := rfl
  rw [hdual, argmax_filter_eq_some_iff]

end Interchange
