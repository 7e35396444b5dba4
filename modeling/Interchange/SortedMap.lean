/-!
# Sorted maps

A `SortedMap κ ν` is a list of entries whose keys ascend strictly, so that a map has one
representation and its entries come in the order of the keys. The view of a map is
`find?`: the lemmas `find?_insert` and `find?_modify` say what the operations do to it, and
`ext_find?` says that a map is determined by it.
-/

namespace Interchange

open Std

/-- Entries whose keys ascend strictly. -/
structure SortedMap (κ : Type) (ν : Type) [Ord κ] where
  entries : List (κ × ν)
  ascending : entries.Pairwise fun a b => compare a.1 b.1 = .lt

namespace SortedMap

variable {κ ν : Type} [Ord κ]

/-! ### Operations on entries -/

/-- The first value with the given key. -/
def findEntry (k : κ) : List (κ × ν) → Option ν
  | [] => none
  | (k', v) :: es => if compare k k' = .eq then some v else findEntry k es

/-- Puts a value at its place, instead of one with the same key. -/
def insertEntry (k : κ) (v : ν) : List (κ × ν) → List (κ × ν)
  | [] => [(k, v)]
  | (k', v') :: es =>
    match compare k k' with
    | .lt => (k, v) :: (k', v') :: es
    | .eq => (k, v) :: es
    | .gt => (k', v') :: insertEntry k v es

/-- Applies `f` to the value with the given key. -/
def modifyEntry (k : κ) (f : ν → ν) : List (κ × ν) → List (κ × ν)
  | [] => []
  | (k', v) :: es => if compare k k' = .eq then (k', f v) :: es else (k', v) :: modifyEntry k f es

private theorem mem_insertEntry {k : κ} {v : ν} {es : List (κ × ν)} {e : κ × ν}
    (h : e ∈ insertEntry k v es) : e = (k, v) ∨ e ∈ es := by
  induction es with
  | nil => simpa [insertEntry] using h
  | cons e' es ih =>
    obtain ⟨k', v'⟩ := e'
    rw [insertEntry] at h
    split at h
    · simpa using h
    · rcases List.mem_cons.1 h with h | h
      · exact .inl h
      · exact .inr (List.mem_cons_of_mem _ h)
    · rcases List.mem_cons.1 h with h | h
      · exact .inr (h ▸ List.mem_cons_self)
      · exact (ih h).imp_right (List.mem_cons_of_mem _)

private theorem map_fst_modifyEntry (k : κ) (f : ν → ν) (es : List (κ × ν)) :
    (modifyEntry k f es).map Prod.fst = es.map Prod.fst := by
  induction es with
  | nil => rfl
  | cons e es ih =>
    obtain ⟨k', v⟩ := e
    rw [modifyEntry]
    split <;> simp [ih]

variable [TransOrd κ] [LawfulEqOrd κ]

private theorem pairwise_insertEntry (k : κ) (v : ν) {es : List (κ × ν)}
    (h : es.Pairwise fun a b => compare a.1 b.1 = .lt) :
    (insertEntry k v es).Pairwise fun a b => compare a.1 b.1 = .lt := by
  induction es with
  | nil => simp [insertEntry]
  | cons e es ih =>
    obtain ⟨k', v'⟩ := e
    obtain ⟨hall, htail⟩ := List.pairwise_cons.1 h
    rw [insertEntry]
    split
    · next hlt =>
      refine List.pairwise_cons.2 ⟨fun e he => ?_, h⟩
      rcases List.mem_cons.1 he with rfl | he
      · exact hlt
      · exact TransCmp.lt_trans hlt (hall e he)
    · next heq =>
      have := LawfulEqCmp.eq_of_compare heq
      subst this
      exact List.pairwise_cons.2 ⟨hall, htail⟩
    · next hgt =>
      refine List.pairwise_cons.2 ⟨fun e he => ?_, ih htail⟩
      rcases mem_insertEntry he with rfl | he
      · exact OrientedCmp.lt_of_gt hgt
      · exact hall e he

omit [TransOrd κ] [LawfulEqOrd κ] in
private theorem pairwise_modifyEntry (k : κ) (f : ν → ν) {es : List (κ × ν)}
    (h : es.Pairwise fun a b => compare a.1 b.1 = .lt) :
    (modifyEntry k f es).Pairwise fun a b => compare a.1 b.1 = .lt := by
  have hm : ((es.map Prod.fst).Pairwise fun a b => compare a b = .lt) :=
    List.pairwise_map.2 h
  rw [← map_fst_modifyEntry k f] at hm
  exact List.pairwise_map.1 hm

/-! ### Maps -/

omit [TransOrd κ] [LawfulEqOrd κ] in
@[ext] theorem ext {m m' : SortedMap κ ν} (h : m.entries = m'.entries) : m = m' := by
  cases m; cases m'; cases h; rfl

instance [DecidableEq κ] [DecidableEq ν] : DecidableEq (SortedMap κ ν) := fun m m' =>
  if h : m.entries = m'.entries then .isTrue (ext h) else .isFalse fun h' => h (h' ▸ rfl)

/-- The map without entries. -/
def empty : SortedMap κ ν := ⟨[], .nil⟩

instance : Inhabited (SortedMap κ ν) := ⟨empty⟩

/-- The value under a key. -/
def find? (m : SortedMap κ ν) (k : κ) : Option ν := findEntry k m.entries

/-- Whether a key has a value. -/
def contains (m : SortedMap κ ν) (k : κ) : Bool := (m.find? k).isSome

/-- Puts a value under a key, instead of the one that was there. -/
def insert (m : SortedMap κ ν) (k : κ) (v : ν) : SortedMap κ ν :=
  ⟨insertEntry k v m.entries, pairwise_insertEntry k v m.ascending⟩

/-- Applies `f` to the value under a key, if there is one. -/
def modify (m : SortedMap κ ν) (k : κ) (f : ν → ν) : SortedMap κ ν :=
  ⟨modifyEntry k f m.entries, pairwise_modifyEntry k f m.ascending⟩

/-- Applies `f` to the value under a key, or to `v` if there is none. -/
def upsert (m : SortedMap κ ν) (k : κ) (v : ν) (f : ν → ν) : SortedMap κ ν :=
  m.insert k (f ((m.find? k).getD v))

/-- The keys, ascending. -/
def keys (m : SortedMap κ ν) : List κ := m.entries.map Prod.fst

/-- The values, in the order of their keys. -/
def values (m : SortedMap κ ν) : List ν := m.entries.map Prod.snd

/-- The number of entries. -/
def size (m : SortedMap κ ν) : Nat := m.entries.length

/-- How often each key occurs in a list, for the keys that do. -/
def tally (ks : List κ) : SortedMap κ Nat :=
  ks.foldl (fun m k => m.upsert k 0 (· + 1)) .empty

/-! ### The view of a map -/

omit [TransOrd κ] [LawfulEqOrd κ] in
@[simp] theorem find?_empty (k : κ) : (empty : SortedMap κ ν).find? k = none := rfl

omit [TransOrd κ] [LawfulEqOrd κ] in
/-- No key is found before the first one. -/
theorem findEntry_eq_none_of_lt {k : κ} {es : List (κ × ν)}
    (h : ∀ e ∈ es, compare k e.1 = .lt) : findEntry k es = none := by
  induction es with
  | nil => rfl
  | cons e es ih =>
    obtain ⟨k', v⟩ := e
    rw [findEntry, if_neg (by simp [h (k', v) List.mem_cons_self])]
    exact ih fun e he => h e (List.mem_cons_of_mem _ he)

private theorem findEntry_insertEntry (k k' : κ) (v : ν) (es : List (κ × ν)) :
    findEntry k' (insertEntry k v es) = if compare k' k = .eq then some v else findEntry k' es := by
  induction es with
  | nil => rfl
  | cons e es ih =>
    obtain ⟨k'', v''⟩ := e
    rw [insertEntry]
    split
    · rfl
    · next heq =>
      have := LawfulEqCmp.eq_of_compare heq
      subst this
      simp only [findEntry]
      split <;> rfl
    · next hgt =>
      simp only [findEntry, ih]
      by_cases hk : compare k' k'' = .eq
      · have := LawfulEqCmp.eq_of_compare hk
        subst this
        have hlt : compare k' k = .lt := OrientedCmp.lt_of_gt hgt
        simp [hlt]
      · simp [hk]

private theorem findEntry_modifyEntry (k k' : κ) (f : ν → ν) (es : List (κ × ν)) :
    findEntry k' (modifyEntry k f es) =
      if compare k' k = .eq then (findEntry k' es).map f else findEntry k' es := by
  induction es with
  | nil => simp [modifyEntry, findEntry]
  | cons e es ih =>
    obtain ⟨k'', v''⟩ := e
    rw [modifyEntry]
    by_cases hk : compare k k'' = .eq
    · have := LawfulEqCmp.eq_of_compare hk
      subst this
      simp only [findEntry, ReflCmp.compare_self, if_true]
      split <;> rfl
    · rw [if_neg hk]
      simp only [findEntry, ih]
      by_cases hk' : compare k' k'' = .eq
      · have := LawfulEqCmp.eq_of_compare hk'
        subst this
        -- the first key is the one asked for, and it is not the one that is modified
        have : compare k' k ≠ .eq := fun h => hk (OrientedCmp.eq_symm h)
        simp [this]
      · simp [hk']

/-- An inserted value is found under its key, every other key is as before. -/
theorem find?_insert [DecidableEq κ] (m : SortedMap κ ν) (k k' : κ) (v : ν) :
    (m.insert k v).find? k' = if k' = k then some v else m.find? k' := by
  simp only [find?, insert, findEntry_insertEntry, LawfulEqCmp.compare_eq_iff_eq]

/-- A modified value is found under its key, every other key is as before. -/
theorem find?_modify [DecidableEq κ] (m : SortedMap κ ν) (k k' : κ) (f : ν → ν) :
    (m.modify k f).find? k' = if k' = k then (m.find? k').map f else m.find? k' := by
  simp only [find?, modify, findEntry_modifyEntry, LawfulEqCmp.compare_eq_iff_eq]

/-- What stands under a key, or `v` if there is nothing, is changed by `f`. -/
theorem getD_find?_upsert [DecidableEq κ] (m : SortedMap κ ν) (k k' : κ) (v : ν) (f : ν → ν) :
    ((m.upsert k v f).find? k').getD v =
      if k' = k then f ((m.find? k').getD v) else (m.find? k').getD v := by
  rw [upsert, find?_insert]
  by_cases hk : k' = k
  · subst hk
    simp
  · simp [hk]

/-- A value that is put or changed is found under its key, every other key is as before. -/
theorem find?_upsert [DecidableEq κ] (m : SortedMap κ ν) (k k' : κ) (v : ν) (f : ν → ν) :
    (m.upsert k v f).find? k' = if k' = k then some (f ((m.find? k).getD v)) else m.find? k' :=
  find?_insert m k k' _

omit [TransOrd κ] in
/-- A value is found under a key exactly if the pair is an entry. -/
theorem find?_eq_some_iff {m : SortedMap κ ν} {k : κ} {v : ν} :
    m.find? k = some v ↔ (k, v) ∈ m.entries := by
  obtain ⟨es, h⟩ := m
  simp only [find?]
  induction es with
  | nil => simp [findEntry]
  | cons e es ih =>
    obtain ⟨k', v'⟩ := e
    obtain ⟨hall, htail⟩ := List.pairwise_cons.1 h
    rw [findEntry, List.mem_cons]
    split
    · next heq =>
      have := LawfulEqCmp.eq_of_compare heq
      subst this
      -- the key does not come again, since the keys ascend
      have : (k, v) ∉ es := fun hm => by simpa using hall _ hm
      simp [this, eq_comm]
    · next hne =>
      have : ¬ (k, v) = (k', v') := fun h => hne (by cases h; exact ReflCmp.compare_self)
      simp [this, ih htail]

omit [TransOrd κ] in
/-- There is at most one entry with a given key. -/
theorem filter_entries_eq [DecidableEq κ] (m : SortedMap κ ν) (k : κ) :
    m.entries.filter (fun e => e.1 = k) = (m.find? k).toList.map fun v => (k, v) := by
  obtain ⟨es, h⟩ := m
  simp only [find?]
  induction es with
  | nil => rfl
  | cons e es ih =>
    obtain ⟨k', v⟩ := e
    obtain ⟨hall, htail⟩ := List.pairwise_cons.1 h
    rw [findEntry, List.filter_cons]
    by_cases hk : k' = k
    · subst hk
      -- the keys ascend, so none of the others is the same
      have hnone : es.filter (fun e => e.1 = k') = [] := by
        rw [List.filter_eq_nil_iff]
        intro e he heq
        rw [decide_eq_true_eq] at heq
        have hlt : compare k' e.1 = .lt := hall e he
        rw [heq] at hlt
        exact absurd (hlt.symm.trans ReflCmp.compare_self) (by decide)
      rw [if_pos ReflCmp.compare_self, hnone]
      simp
    · have hne : compare k k' ≠ .eq := fun heq => hk (LawfulEqCmp.eq_of_compare heq).symm
      rw [if_neg hne, ← ih htail]
      simp [hk]

omit [TransOrd κ] in
/-- No entry of a kind has a smaller key than the first. -/
private theorem compare_of_find?_entries {m : SortedMap κ ν} {p : κ × ν → Bool} {k k' : κ}
    {v v' : ν} (h : m.entries.find? p = some (k, v)) (hfind : m.find? k' = some v')
    (hp : p (k', v') = true) (hne : k' ≠ k) : compare k k' = .lt := by
  obtain ⟨-, front, back, hentries, hfront⟩ := List.find?_eq_some_iff_append.mp h
  have hmem := find?_eq_some_iff.mp hfind
  have hasc := m.ascending
  rw [hentries] at hmem hasc
  rcases List.mem_append.mp hmem with hmem | hmem
  · exact absurd hp (by simpa using hfront _ hmem)
  · rcases List.mem_cons.mp hmem with heq | hmem
    · exact absurd (congrArg Prod.fst heq) hne
    · exact (List.pairwise_cons.mp (List.pairwise_append.mp hasc).2.1).1 _ hmem

/-- The first entry of a kind is the one with the least key. -/
theorem find?_entries_eq_some_iff {m : SortedMap κ ν} {p : κ × ν → Bool} {k : κ} {v : ν} :
    m.entries.find? p = some (k, v) ↔
      m.find? k = some v ∧ p (k, v) = true ∧
        ∀ k' v', m.find? k' = some v' → p (k', v') = true → k' ≠ k → compare k k' = .lt := by
  constructor
  · intro h
    exact ⟨find?_eq_some_iff.mpr (List.mem_of_find?_eq_some h), List.find?_some h,
      fun k' v' hfind hp hne => compare_of_find?_entries h hfind hp hne⟩
  · rintro ⟨hfind, hp, hleast⟩
    cases h : m.entries.find? p with
    | none =>
      exact absurd hp (by simpa using List.find?_eq_none.mp h _ (find?_eq_some_iff.mp hfind))
    | some e =>
      obtain ⟨k', v'⟩ := e
      have hfind' := find?_eq_some_iff.mpr (List.mem_of_find?_eq_some h)
      by_cases hk : k' = k
      · subst hk
        rw [Option.some.inj (hfind'.symm.trans hfind)]
      · -- each of two different keys would come before the other
        have hlt := hleast k' v' hfind' (List.find?_some h) hk
        have hgt := compare_of_find?_entries h hfind hp (Ne.symm hk)
        have hself : compare k k = .lt := TransCmp.lt_trans hlt hgt
        exact absurd (hself.symm.trans ReflCmp.compare_self) (by decide)

/-- Two maps with the same view are the same. -/
theorem ext_find? {m m' : SortedMap κ ν} (h : ∀ k, m.find? k = m'.find? k) : m = m' := by
  apply ext
  obtain ⟨es, hs⟩ := m
  obtain ⟨es', hs'⟩ := m'
  simp only [find?] at h
  simp only
  induction es generalizing es' with
  | nil =>
    cases es' with
    | nil => rfl
    | cons e' es' => have := h e'.1; simp [findEntry] at this
  | cons e es ih =>
    obtain ⟨hall, htail⟩ := List.pairwise_cons.1 hs
    cases es' with
    | nil => have := h e.1; simp [findEntry] at this
    | cons e' es' =>
      obtain ⟨hall', htail'⟩ := List.pairwise_cons.1 hs'
      -- the smaller of two different first keys would be missing from the other list
      have hkey : compare e.1 e'.1 = .eq := by
        cases hc : compare e.1 e'.1 with
        | eq => rfl
        | lt =>
          have := h e.1
          rw [findEntry, findEntry, if_pos ReflCmp.compare_self, if_neg (by simp [hc]),
            findEntry_eq_none_of_lt fun x hx => TransCmp.lt_trans hc (hall' x hx)] at this
          simp at this
        | gt =>
          have hc' : compare e'.1 e.1 = .lt := OrientedCmp.lt_of_gt hc
          have := h e'.1
          rw [findEntry, findEntry, if_neg (by simp [hc']), if_pos ReflCmp.compare_self,
            findEntry_eq_none_of_lt fun x hx => TransCmp.lt_trans hc' (hall x hx)] at this
          simp at this
      have hk := LawfulEqCmp.eq_of_compare hkey
      obtain ⟨k, v⟩ := e
      obtain ⟨k', v'⟩ := e'
      simp only at hk
      subst hk
      have hv : v = v' := by simpa [findEntry] using h k
      subst hv
      congr 1
      -- the first key is found in neither of the tails, so the tails have the same view
      refine ih htail es' htail' fun x => ?_
      have hx := h x
      rw [findEntry, findEntry] at hx
      split at hx
      · next hxk =>
        have := LawfulEqCmp.eq_of_compare hxk
        subst this
        rw [findEntry_eq_none_of_lt hall, findEntry_eq_none_of_lt hall']
      · exact hx

/-! ### The entries of a changed map -/

omit [TransOrd κ] [LawfulEqOrd κ] in
private theorem perm_insertEntry_of_none {k : κ} {es : List (κ × ν)} (h : findEntry k es = none)
    (v : ν) : (insertEntry k v es).Perm ((k, v) :: es) := by
  induction es with
  | nil => exact .refl _
  | cons e es ih =>
    obtain ⟨k', v'⟩ := e
    rw [findEntry] at h
    split at h
    · cases h
    · next hne =>
      rw [insertEntry]
      split
      · exact .refl _
      · next heq => exact absurd heq hne
      · exact ((ih h).cons _).trans (.swap _ _ _)

private theorem perm_insertEntry_of_some {k : κ} {v₀ : ν} {es : List (κ × ν)}
    (hasc : es.Pairwise fun a b => compare a.1 b.1 = .lt) (h : findEntry k es = some v₀) (v : ν) :
    ((k, v₀) :: insertEntry k v es).Perm ((k, v) :: es) := by
  induction es with
  | nil => cases h
  | cons e es ih =>
    obtain ⟨k', v'⟩ := e
    obtain ⟨hall, htail⟩ := List.pairwise_cons.1 hasc
    rw [findEntry] at h
    rw [insertEntry]
    split
    · next hlt =>
      -- an entry further on cannot have the key, since the keys ascend
      rw [if_neg (by simp [hlt]), findEntry_eq_none_of_lt fun e he =>
        TransCmp.lt_trans hlt (hall e he)] at h
      cases h
    · next heq =>
      rw [if_pos heq] at h
      obtain rfl := LawfulEqCmp.eq_of_compare heq
      obtain rfl := Option.some.inj h
      exact .swap _ _ _
    · next hgt =>
      rw [if_neg (by simp [hgt])] at h
      exact (List.Perm.swap _ _ _).trans (((ih htail h).cons _).trans (.swap _ _ _))

/-- A value under a new key is one more entry. -/
theorem perm_entries_insert_of_none {m : SortedMap κ ν} {k : κ} (h : m.find? k = none) (v : ν) :
    (m.insert k v).entries.Perm ((k, v) :: m.entries) :=
  perm_insertEntry_of_none h v

/-- A value under a key that is there takes the place of the old one. -/
theorem perm_entries_insert_of_some {m : SortedMap κ ν} {k : κ} {v₀ : ν} (h : m.find? k = some v₀)
    (v : ν) : ((k, v₀) :: (m.insert k v).entries).Perm ((k, v) :: m.entries) :=
  perm_insertEntry_of_some m.ascending h v

theorem size_insert_of_none {m : SortedMap κ ν} {k : κ} (h : m.find? k = none) (v : ν) :
    (m.insert k v).size = m.size + 1 :=
  (perm_entries_insert_of_none h v).length_eq

omit [TransOrd κ] [LawfulEqOrd κ] in
@[simp] theorem size_modify (m : SortedMap κ ν) (k : κ) (f : ν → ν) :
    (m.modify k f).size = m.size := by
  have hkeys := congrArg List.length (map_fst_modifyEntry k f m.entries)
  rwa [List.length_map, List.length_map] at hkeys

end SortedMap

end Interchange
