import Mathlib.Data.List.Basic
import Mathlib.Tactic.Common

/-!
# Checks in a row

Checks that are made one after the other pass if each of them does, and otherwise the first that
fails says what is wrong. The same holds of a check that goes through a list: `FirstAt` names the
first element with a property by its position, and a search that stops at the first hit finds it
(`findSome?_eq_some_iff_firstAt`).
-/

namespace Interchange

/-! ### One check after the other -/

section Except

variable {ε ε' α β : Type} {x : Except ε α}

theorem bind_eq_ok_iff {f : α → Except ε β} {b : β} :
    x >>= f = .ok b ↔ ∃ a, x = .ok a ∧ f a = .ok b := by
  cases x <;> simp [bind, Except.bind]

theorem bind_eq_error_iff {f : α → Except ε β} {e : ε} :
    x >>= f = .error e ↔ x = .error e ∨ ∃ a, x = .ok a ∧ f a = .error e := by
  cases x <;> simp [bind, Except.bind]

theorem map_eq_ok_iff {g : α → β} {b : β} : g <$> x = .ok b ↔ ∃ a, x = .ok a ∧ g a = b := by
  cases x <;> simp

/-- Checks of all elements pass only if each of them does. -/
theorem exists_eq_ok_of_mapM {f : α → Except ε β} {as : List α} {bs : List β}
    (h : as.mapM f = .ok bs) {a : α} (ha : a ∈ as) : ∃ b, f a = .ok b := by
  induction as generalizing bs with
  | nil => cases ha
  | cons a' as ih =>
    rw [List.mapM_cons] at h
    obtain ⟨b, hb, h⟩ := bind_eq_ok_iff.mp h
    obtain ⟨bs', hbs, -⟩ := bind_eq_ok_iff.mp h
    rcases List.mem_cons.mp ha with rfl | ha
    · exact ⟨b, hb⟩
    · exact ih hbs ha

/-- A check that passes has nothing to return. -/
theorem exists_eq_ok_unit_iff {x : Except ε Unit} : (∃ u, x = .ok u) ↔ x = .ok () :=
  ⟨fun ⟨(), h⟩ => h, fun h => ⟨(), h⟩⟩

theorem mapError_eq_ok_iff {f : ε → ε'} {a : α} : x.mapError f = .ok a ↔ x = .ok a := by
  cases x <;> simp [Except.mapError]

theorem mapError_eq_error_iff {f : ε → ε'} {e : ε'} :
    x.mapError f = .error e ↔ ∃ e', x = .error e' ∧ f e' = e := by
  cases x <;> simp [Except.mapError]

/-- Errors may be renamed step by step. -/
theorem mapError_bind_eq {f : α → Except ε β} {f' : α → Except ε' β} {g : ε → ε'}
    (h : ∀ a, x = .ok a → f' a = (f a).mapError g) :
    x.mapError g >>= f' = (x >>= f).mapError g := by
  cases x with
  | error e => rfl
  | ok a => exact h a rfl

end Except

/-! ### The first in a list -/

/-- Positions ascend. -/
theorem pairwise_zipIdx {α : Type} (as : List α) : as.zipIdx.Pairwise fun x y => x.2 < y.2 := by
  have h : (as.zipIdx.map Prod.snd).Pairwise (· < ·) := by
    rw [List.zipIdx_map_snd]
    exact List.pairwise_lt_range'
  exact List.pairwise_map.mp h

/-- **The first.** The element at position `i` has the property, and no earlier one has it. -/
structure FirstAt {α : Type} (P : α → Prop) (as : List α) (i : Nat) (a : α) : Prop where
  there : as[i]? = some a
  holds : P a
  first : ∀ (j : Nat) b, as[j]? = some b → P b → i ≤ j

section FirstAt

variable {α β γ : Type} {P : α → Prop} {as : List α} {i : Nat} {a : α}

theorem FirstAt.mem (h : FirstAt P as i a) : a ∈ as := List.mem_of_getElem? h.there

/-- What is first splits the list: before it stands nothing with the property. -/
theorem firstAt_iff :
    FirstAt P as i a ↔
      ∃ before after, as = before ++ a :: after ∧ before.length = i ∧ P a ∧
        ∀ b ∈ before, ¬ P b := by
  constructor
  · intro h
    obtain ⟨hi, ha⟩ := List.getElem?_eq_some_iff.mp h.there
    have hsplit : as = as.take i ++ a :: as.drop (i + 1) := by
      rw [← ha, ← List.drop_eq_getElem_cons hi, List.take_append_drop]
    -- an element before the split has a smaller position
    refine ⟨as.take i, as.drop (i + 1), hsplit, List.length_take_of_le (Nat.le_of_lt hi), h.holds,
      fun b hb hP => ?_⟩
    obtain ⟨j, hj⟩ := List.mem_iff_getElem?.mp hb
    rw [List.getElem?_take] at hj
    split_ifs at hj with hlt
    exact Nat.not_le.mpr hlt (h.first j b hj hP)
  · rintro ⟨before, after, rfl, rfl, ha, hbefore⟩
    refine ⟨by simp, ha, fun j b hj hb => ?_⟩
    by_contra hlt
    rw [List.getElem?_append_left (Nat.lt_of_not_le hlt)] at hj
    exact hbefore b (List.mem_of_getElem? hj) hb

/-- The first of a kind splits the list: it is of the kind, and nothing before it is. -/
theorem exists_firstAt_iff :
    (∃ i, FirstAt P as i a) ↔
      ∃ before after, as = before ++ a :: after ∧ P a ∧ ∀ b ∈ before, ¬ P b := by
  simp only [firstAt_iff]
  constructor
  · rintro ⟨_, before, after, hsplit, -, h⟩
    exact ⟨before, after, hsplit, h⟩
  · rintro ⟨before, after, hsplit, h⟩
    exact ⟨before.length, before, after, hsplit, rfl, h⟩

/-- Elements at the end that do not have the property change nothing. -/
theorem firstAt_append_iff {bs : List α} (hbs : ∀ b ∈ bs, ¬ P b) :
    FirstAt P (as ++ bs) i a ↔ FirstAt P as i a := by
  have hleft : ∀ (j : Nat) b, P b → ((as ++ bs)[j]? = some b ↔ as[j]? = some b) := by
    intro j b hb
    rcases Nat.lt_or_ge j as.length with hlt | hge
    · rw [List.getElem?_append_left hlt]
    · rw [List.getElem?_append_right hge, List.getElem?_eq_none hge]
      exact ⟨fun h => absurd hb (hbs b (List.mem_of_getElem? h)), fun h => nomatch h⟩
  constructor
  · intro h
    exact ⟨(hleft i a h.holds).mp h.there, h.holds,
      fun j b hj hb => h.first j b ((hleft j b hb).mpr hj) hb⟩
  · intro h
    exact ⟨(hleft i a h.holds).mpr h.there, h.holds,
      fun j b hj hb => h.first j b ((hleft j b hb).mp hj) hb⟩

/-- In a list that ascends the first is the least. -/
theorem exists_firstAt_iff_of_pairwise {R : α → α → Prop} (h : as.Pairwise R)
    (hR : ∀ a b, R a b → ¬ R b a) :
    (∃ i, FirstAt P as i a) ↔ a ∈ as ∧ P a ∧ ∀ b ∈ as, P b → ¬ R b a := by
  rw [exists_firstAt_iff]
  constructor
  · rintro ⟨before, after, rfl, ha, hbefore⟩
    refine ⟨by simp, ha, fun b hb hP hba => ?_⟩
    obtain ⟨-, hafter, -⟩ := List.pairwise_append.mp h
    rcases List.mem_append.mp hb with hb | hb
    · exact hbefore b hb hP
    · rcases List.mem_cons.mp hb with rfl | hb
      · exact hR b b hba hba
      · exact hR a b ((List.pairwise_cons.mp hafter).1 b hb) hba
  · rintro ⟨hmem, ha, hleast⟩
    obtain ⟨before, after, rfl⟩ := List.append_of_mem hmem
    obtain ⟨-, -, hbefore⟩ := List.pairwise_append.mp h
    exact ⟨before, after, rfl, ha,
      fun b hb hP => hleast b (by simp [hb]) hP (hbefore b hb a List.mem_cons_self)⟩

/-- Among the elements with their positions, the first of a kind carries its own. -/
theorem firstAt_zipIdx_iff {k : Nat} :
    FirstAt (fun entry : α × Nat => P entry.1) as.zipIdx i (a, k) ↔ k = i ∧ FirstAt P as i a := by
  have hthere : ∀ (j : Nat) b l, as.zipIdx[j]? = some (b, l) ↔ l = j ∧ as[j]? = some b := by
    intro j b l
    rw [List.getElem?_zipIdx, Option.map_eq_some_iff]
    simp only [Prod.mk.injEq, Nat.zero_add]
    exact ⟨fun ⟨c, hc, hb, hl⟩ => ⟨hl.symm, hb ▸ hc⟩, fun ⟨hl, hb⟩ => ⟨b, hb, rfl, hl.symm⟩⟩
  constructor
  · intro h
    obtain ⟨hk, ha⟩ := (hthere i a k).mp h.there
    exact ⟨hk, ha, h.holds, fun j b hj hb => h.first j (b, j) ((hthere j b j).mpr ⟨rfl, hj⟩) hb⟩
  · rintro ⟨hk, h⟩
    refine ⟨(hthere i a k).mpr ⟨hk, h.there⟩, h.holds, fun j ⟨b, l⟩ hj hb => ?_⟩
    exact h.first j b ((hthere j b l).mp hj).2 hb

/-- **Searching** a list for the first element about which there is something to report. -/
theorem findSome?_eq_some_iff_firstAt {f : α → Option β} {b : β} :
    as.findSome? f = some b ↔ ∃ i a, FirstAt (fun a => (f a).isSome) as i a ∧ f a = some b := by
  rw [List.findSome?_eq_some_iff]
  constructor
  · rintro ⟨before, a, after, hsplit, hb, hbefore⟩
    have hfirst : ∃ i, FirstAt (fun a => (f a).isSome) as i a := by
      refine exists_firstAt_iff.mpr ⟨before, after, hsplit, by simp [hb], fun c hc => ?_⟩
      simp [hbefore c hc]
    obtain ⟨i, hi⟩ := hfirst
    exact ⟨i, a, hi, hb⟩
  · rintro ⟨i, a, hi, hb⟩
    obtain ⟨before, after, hsplit, -, hbefore⟩ := exists_firstAt_iff.mp ⟨i, hi⟩
    refine ⟨before, a, after, hsplit, hb, fun c hc => ?_⟩
    simpa using hbefore c hc

/-- A search finds the first of a kind. -/
theorem find?_eq_some_iff_firstAt {p : α → Bool} :
    as.find? p = some a ↔ ∃ i, FirstAt (p · = true) as i a := by
  rw [List.find?_eq_some_iff_append, exists_firstAt_iff]
  constructor
  · rintro ⟨ha, before, after, hsplit, hbefore⟩
    exact ⟨before, after, hsplit, ha, fun b hb => by simpa using hbefore b hb⟩
  · rintro ⟨before, after, hsplit, ha, hbefore⟩
    exact ⟨ha, before, after, hsplit, fun b hb => by simpa using hbefore b hb⟩

theorem findIdx?_eq_some_iff_firstAt {p : α → Bool} :
    as.findIdx? p = some i ↔ ∃ a, FirstAt (p · = true) as i a := by
  rw [List.findIdx?_eq_some_iff_getElem]
  constructor
  · rintro ⟨hi, ha, hbefore⟩
    refine ⟨as[i], List.getElem?_eq_getElem hi, ha, fun j b hj hb => ?_⟩
    obtain ⟨hj, rfl⟩ := List.getElem?_eq_some_iff.mp hj
    exact Nat.not_lt.mp fun hlt => hbefore j hlt hb
  · rintro ⟨a, ⟨hthere, ha, hfirst⟩⟩
    obtain ⟨hi, rfl⟩ := List.getElem?_eq_some_iff.mp hthere
    refine ⟨hi, ha, fun j hlt hb => ?_⟩
    exact Nat.not_le.mpr hlt (hfirst j _ (List.getElem?_eq_getElem (Nat.lt_trans hlt hi)) hb)

/-- **Searching lists in a list.** The first of them with a hit is found, and its first hit. -/
theorem findSome?_find?_eq_some_iff {items : α → List γ} {p : γ → Bool} {f : α → γ → β} {b : β} :
    as.findSome? (fun a => ((items a).find? p).map (f a)) = some b ↔
      ∃ i a j c, FirstAt (fun a => ∃ c ∈ items a, p c = true) as i a ∧
        FirstAt (p · = true) (items a) j c ∧ f a c = b := by
  have hsome : (fun a => (((items a).find? p).map (f a)).isSome = true) =
      fun a => ∃ c ∈ items a, p c = true := by
    funext a
    rw [Option.isSome_map, List.find?_isSome]
  rw [findSome?_eq_some_iff_firstAt, hsome]
  simp only [Option.map_eq_some_iff, find?_eq_some_iff_firstAt]
  constructor
  · rintro ⟨i, a, hi, c, ⟨j, hj⟩, hb⟩
    exact ⟨i, a, j, c, hi, hj, hb⟩
  · rintro ⟨i, a, j, c, hi, hj, hb⟩
    exact ⟨i, a, hi, c, ⟨j, hj⟩, hb⟩

end FirstAt

end Interchange
