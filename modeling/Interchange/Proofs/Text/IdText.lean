import Interchange.ScopedId
import Interchange.Proofs.Checks
import Mathlib.Data.List.TakeWhile

/-!
# Texts of ids

Which texts are ids? Those with something in front of their first colon and something behind it
(`ScopedId.exists_parse_eq_ok_iff`). Each of them is the text of one id, and that id is read from no
other text (`ScopedId.parse_eq_ok_iff`).

The reader looks for a colon only, and what it cuts off is checked part by part
(`ScopedId.exists_make_eq_ok_iff`). The two accept the same. In front of the first colon there is
none, so a feed with a colon cannot come out of a text (`ScopedId.cutAtColon_eq_some_iff`); and of
two parts that make an id the first has no colon, so that the text is cut where they meet.
-/

namespace Interchange.ScopedId

variable {feed localId s : String} {id : ScopedId} {cs before after : List Char}

/-! ### Parts -/

/-- What is made of two parts has them as they are. -/
theorem make_eq_ok_iff : make feed localId = .ok id ↔ id.feed = feed ∧ id.localId = localId := by
  constructor
  · intro h
    unfold make at h
    split_ifs at h
    obtain rfl := Except.ok.inj h
    exact ⟨rfl, rfl⟩
  · rintro ⟨rfl, rfl⟩
    exact make_parts id

/-- **Parts.** Two parts make an id exactly if neither is empty and the feed has no colon. -/
theorem exists_make_eq_ok_iff :
    (∃ id, make feed localId = .ok id) ↔ feed ≠ "" ∧ ':' ∉ feed.toList ∧ localId ≠ "" := by
  constructor
  · rintro ⟨id, h⟩
    obtain ⟨rfl, rfl⟩ := make_eq_ok_iff.mp h
    exact id.valid
  · intro hvalid
    exact ⟨⟨feed, localId, hvalid⟩, make_parts ⟨feed, localId, hvalid⟩⟩

/-! ### The first colon -/

/-- Where there is no colon, the search for one passes every character. -/
private theorem decide_ne_colon (h : ':' ∉ cs) : ∀ c ∈ cs, decide (c ≠ ':') = true := by
  rintro c hc
  rw [decide_eq_true_eq]
  rintro rfl
  exact h hc

/-- The cut is at the first colon. -/
theorem cutAtColon_append (h : ':' ∉ before) (after : List Char) :
    cutAtColon (before ++ ':' :: after) = some (before, after) := by
  have hbefore := decide_ne_colon h
  rw [cutAtColon, List.dropWhile_append_of_pos hbefore, List.takeWhile_append_of_pos hbefore]
  simp

theorem cutAtColon_eq_none_iff : cutAtColon cs = none ↔ ':' ∉ cs := by
  constructor
  · intro h hcolon
    obtain ⟨before, after, rfl, hbefore⟩ := List.eq_append_cons_of_mem hcolon
    rw [cutAtColon_append hbefore] at h
    cases h
  · intro hcolon
    rw [cutAtColon, List.dropWhile_eq_nil_iff.mpr (decide_ne_colon hcolon)]

/-- A text is cut at its first colon. -/
theorem cutAtColon_eq_some_iff :
    cutAtColon cs = some (before, after) ↔ cs = before ++ ':' :: after ∧ ':' ∉ before := by
  constructor
  · intro h
    have hcolon : ':' ∈ cs := by
      by_contra hnone
      rw [cutAtColon_eq_none_iff.mpr hnone] at h
      cases h
    obtain ⟨before', after', rfl, hbefore⟩ := List.eq_append_cons_of_mem hcolon
    rw [cutAtColon_append hbefore, Option.some.injEq, Prod.mk.injEq] at h
    obtain ⟨rfl, rfl⟩ := h
    exact ⟨rfl, hbefore⟩
  · rintro ⟨rfl, hbefore⟩
    exact cutAtColon_append hbefore after

/-! ### Texts -/

private theorem toList_text (id : ScopedId) :
    id.text.toList = id.feed.toList ++ ':' :: id.localId.toList := by
  simp [text, String.toList_append]

/-- Every id is read back from its text, whatever characters it has. -/
theorem parse_text (id : ScopedId) : parse id.text = .ok id := by
  rw [parse, toList_text, cutAtColon_append id.valid.2.1]
  simp only [String.ofList_toList, make_parts]

/-- Two ids with one text are the same id. -/
theorem text_injective : Function.Injective text := by
  intro id id' h
  have hread : parse id.text = .ok id' := by rw [h, parse_text]
  exact Except.ok.inj ((parse_text id).symm.trans hread)

/-- **Reading.** An id is read from its own text and from no other. -/
theorem parse_eq_ok_iff : parse s = .ok id ↔ id.text = s := by
  constructor
  · intro h
    unfold parse at h
    split at h
    · cases h
    next before after hcut =>
      obtain ⟨hcs, -⟩ := cutAtColon_eq_some_iff.mp hcut
      obtain ⟨hfeed, hlocal⟩ := make_eq_ok_iff.mp h
      apply String.toList_injective
      rw [toList_text, hfeed, hlocal, String.toList_ofList, String.toList_ofList, hcs]
  · rintro rfl
    exact parse_text id

/-- **Texts of ids** are those with something in front of their first colon and something
behind it. -/
theorem exists_parse_eq_ok_iff :
    (∃ id, parse s = .ok id) ↔
      ∃ i, FirstAt (· = ':') s.toList i ':' ∧ 0 < i ∧ i + 1 < s.length := by
  simp only [parse_eq_ok_iff]
  constructor
  · rintro ⟨id, rfl⟩
    obtain ⟨hfeed, hcolon, hlocal⟩ := id.valid
    have hbefore := List.length_pos_of_ne_nil (mt String.toList_eq_nil_iff.mp hfeed)
    have hafter := List.length_pos_of_ne_nil (mt String.toList_eq_nil_iff.mp hlocal)
    refine ⟨id.feed.toList.length, firstAt_iff.mpr ⟨_, _, toList_text id, rfl, rfl, ?_⟩,
      hbefore, ?_⟩
    · rintro c hc rfl
      exact hcolon hc
    · rw [← String.length_toList, toList_text, List.length_append, List.length_cons]
      omega
  · -- the parts around the first colon make an id
    rintro ⟨i, hfirst, hbefore, hafter⟩
    obtain ⟨before, after, hs, rfl, -, hcolon⟩ := firstAt_iff.mp hfirst
    rw [← String.length_toList, hs, List.length_append, List.length_cons] at hafter
    have hfeed : String.ofList before ≠ "" :=
      mt String.ofList_eq_empty_iff.mp (List.ne_nil_of_length_pos hbefore)
    have hlocal : String.ofList after ≠ "" :=
      mt String.ofList_eq_empty_iff.mp (List.ne_nil_of_length_pos (by omega))
    have hfree : ':' ∉ (String.ofList before).toList := by
      rw [String.toList_ofList]
      exact fun hmem => hcolon ':' hmem rfl
    obtain ⟨id, hid⟩ := exists_make_eq_ok_iff.mpr ⟨hfeed, hfree, hlocal⟩
    obtain ⟨hidFeed, hidLocal⟩ := make_eq_ok_iff.mp hid
    refine ⟨id, String.toList_injective ?_⟩
    rw [toList_text, hidFeed, hidLocal, String.toList_ofList, String.toList_ofList, hs]

end Interchange.ScopedId
