import Interchange.Version.Active
import Mathlib.Data.List.Induction
import Mathlib.Tactic.Common

/-!
# What the active set holds

Grouping through a map is a filter: under each key stand the entities of that key, in the
order in which they came (`getD_find?_groupByKey`). The active set therefore holds under each
key the version that is active among the versions of that key (`find?_activeSet`), whatever
other keys there are.
-/

namespace Interchange

variable {α β κ : Type} [Ord κ] [Std.TransOrd κ] [Std.LawfulEqOrd κ] [DecidableEq κ]

/-! ### The latest of several -/

private theorem latestFrom_mem (version : α → Int) (best : α) (as : List α) :
    latestFrom version best as ∈ best :: as := by
  induction as generalizing best with
  | nil => exact List.mem_cons_self
  | cons a as ih =>
    rw [latestFrom]
    split_ifs
    · rcases List.mem_cons.mp (ih best) with h | h
      · rw [h]
        exact List.mem_cons_self
      · exact List.mem_cons_of_mem _ (List.mem_cons_of_mem _ h)
    · exact List.mem_cons_of_mem _ (ih a)

theorem mem_of_latestBy {version : α → Int} {as : List α} {a : α}
    (h : latestBy version as = some a) : a ∈ as := by
  cases as with
  | nil => cases h
  | cons b bs =>
    have hmem := latestFrom_mem version b bs
    rwa [Option.some.inj h] at hmem

/-- A version that is chosen is there, and valid at the time. -/
theorem mem_of_selectActive {versions : List (Versioned α)} {t : DateTime} {e : Versioned α}
    (h : selectActive versions t = some e) : e ∈ versions ∧ isValidAt e.validity t = true :=
  List.mem_filter.mp (mem_of_latestBy h)

/-! ### Grouping -/

omit [DecidableEq κ] in
private theorem groupByKey_concat (key : α → κ) (as : List α) (a : α) :
    groupByKey key (as ++ [a]) = (groupByKey key as).upsert (key a) [] (· ++ [a]) := by
  rw [groupByKey, List.foldl_append]
  rfl

/-- **Grouping.** The group of a key is the list of its entities, in their order. -/
theorem getD_find?_groupByKey (key : α → κ) (as : List α) (k : κ) :
    ((groupByKey key as).find? k).getD [] = as.filter fun a => key a = k := by
  induction as using List.reverseRecOn with
  | nil => rfl
  | append_singleton as a ih =>
    rw [groupByKey_concat, SortedMap.getD_find?_upsert, ih, List.filter_append]
    by_cases hk : k = key a
    · subst hk
      simp
    · simp [hk, Ne.symm hk]

/-! ### The active set -/

/-- Entries with different keys do not get into each other's way when their images are put
into a map. -/
private theorem find?_foldl_insert {f : α → Option β} {g : SortedMap κ β → κ × α → SortedMap κ β}
    (hg : ∀ m k a, g m (k, a) = ((f a).map (m.insert k)).getD m) {es : List (κ × α)}
    (hes : es.Pairwise fun a b => compare a.1 b.1 = .lt) (m : SortedMap κ β) (k : κ) :
    (es.foldl g m).find? k = ((SortedMap.findEntry k es).bind f).or (m.find? k) := by
  induction es generalizing m with
  | nil => rfl
  | cons e es ih =>
    obtain ⟨k', a⟩ := e
    obtain ⟨hall, htail⟩ := List.pairwise_cons.mp hes
    rw [List.foldl_cons, ih htail, SortedMap.findEntry, hg]
    by_cases hk : k = k'
    · subst hk
      rw [SortedMap.findEntry_eq_none_of_lt hall, if_pos Std.ReflCmp.compare_self]
      cases hf : f a <;> simp [hf, SortedMap.find?_insert]
    · rw [if_neg (mt Std.LawfulEqCmp.eq_of_compare hk)]
      cases f a <;> simp [SortedMap.find?_insert, hk]

/-- **Active versions.** Under each key the active set holds the version that is active among
the versions of that key. -/
theorem find?_activeSet (key : Versioned α → κ) (versions : List (Versioned α)) (t : DateTime)
    (k : κ) :
    (activeSet key versions t).find? k =
      selectActive (versions.filter fun e => key e = k) t := by
  rw [activeSet, find?_foldl_insert (f := fun group => selectActive group t) ?step
    (groupByKey key versions).ascending, ← getD_find?_groupByKey key versions k,
    SortedMap.find?_empty, Option.or_none]
  case step =>
    intro m k group
    dsimp only
    cases selectActive group t <;> rfl
  change ((groupByKey key versions).find? k).bind _ = _
  cases (groupByKey key versions).find? k <;> rfl

/-- What stands under a key is a version with that key which is valid at the moment. -/
theorem of_find?_activeSet {key : Versioned α → κ} {versions : List (Versioned α)}
    {t : DateTime} {k : κ} {e : Versioned α} (h : (activeSet key versions t).find? k = some e) :
    e ∈ versions ∧ key e = k ∧ isValidAt e.validity t = true := by
  rw [find?_activeSet] at h
  obtain ⟨hmem, hvalid⟩ := mem_of_selectActive h
  obtain ⟨hmem, hkey⟩ := List.mem_filter.mp hmem
  exact ⟨hmem, of_decide_eq_true hkey, hvalid⟩

end Interchange
