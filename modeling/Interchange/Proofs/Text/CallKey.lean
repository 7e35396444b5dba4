import Interchange.Trip
import Interchange.Proofs.Text.IdText
import Interchange.Proofs.Text.Numeral
import Mathlib.Data.List.DropRight

/-!
# Keys of calls as ids

The key of a call is written as its trip, the mark `_#` and its number. That is the text of an id
again, of the same feed as the trip (`CallKey.exists_asId_eq_ok`).

The id of a trip may itself have colons, marks and digits: `F:T_#1:2` is a trip, and `F:T_#1:2_#34`
a call of it. The two parts are told apart all the same. The first colon belongs to the trip, since
its feed has none. The digits at the end of the text are the number, whatever digits the trip has,
since they stop at the last mark (`CallKey.rtakeWhile_isDigit_text`), and what stands in front of
them is the trip with this mark (`CallKey.rdropWhile_isDigit_text`).
-/

namespace Interchange.CallKey

open Decimal

variable {k k' : CallKey}

/-! ### The key as an id -/

private theorem toList_suffix (sequence : Nat) :
    (suffix sequence).toList = '_' :: '#' :: digits sequence := by
  simp [suffix, Decimal.text, String.toList_append]

/-- **The id of a key.** It is in the feed of the trip and has the text of the key. -/
theorem exists_asId_eq_ok (k : CallKey) :
    ∃ id, k.asId = .ok id ∧ id.feed = k.trip.feed ∧ id.text = k.text := by
  obtain ⟨hfeed, hcolon, -⟩ := k.trip.valid
  have hlocal : k.trip.localId ++ suffix k.sequence ≠ "" := by
    intro hempty
    have hchars := congrArg String.toList hempty
    rw [String.toList_append, toList_suffix] at hchars
    exact List.append_ne_nil_of_right_ne_nil _ (List.cons_ne_nil _ _) hchars
  let id : ScopedId := ⟨k.trip.feed, k.trip.localId ++ suffix k.sequence, hfeed, hcolon, hlocal⟩
  refine ⟨id, ScopedId.make_parts id, rfl, ?_⟩
  simp only [id, ScopedId.text, text, String.append_assoc]

/-! ### The two parts of the text -/

private theorem toList_text (k : CallKey) :
    k.text.toList = (k.trip.text.toList ++ ['_', '#']) ++ digits k.sequence := by
  rw [text, String.toList_append, toList_suffix, List.append_assoc]
  rfl

private theorem isDigit_of_mem_reverse_digits {n : Nat} :
    ∀ c ∈ (digits n).reverse, c.isDigit = true :=
  fun c hc => (isRun_digits n).isDigit c (List.mem_reverse.mp hc)

/-- The digits at the end of the text are the number. -/
private theorem rtakeWhile_isDigit_text (k : CallKey) :
    k.text.toList.rtakeWhile Char.isDigit = digits k.sequence := by
  rw [toList_text, List.rtakeWhile, List.reverse_append,
    List.takeWhile_append_of_pos isDigit_of_mem_reverse_digits, List.reverse_append]
  simp

/-- In front of them stands the trip, with the mark. -/
private theorem rdropWhile_isDigit_text (k : CallKey) :
    k.text.toList.rdropWhile Char.isDigit = k.trip.text.toList ++ ['_', '#'] := by
  rw [toList_text, List.rdropWhile, List.reverse_append,
    List.dropWhile_append_of_pos isDigit_of_mem_reverse_digits, ← List.rdropWhile_reverse]
  simp

/-- Texts of different keys differ: the number is behind the last separator. -/
theorem eq_of_text_eq (h : k.text = k'.text) : k = k' := by
  have htrip : k.trip = k'.trip := by
    refine ScopedId.text_injective (String.toList_injective ?_)
    have hfront := rdropWhile_isDigit_text k
    rw [h, rdropWhile_isDigit_text k'] at hfront
    exact (List.append_cancel_right hfront).symm
  have hsequence : k.sequence = k'.sequence := by
    have hdigits := rtakeWhile_isDigit_text k
    rw [h, rtakeWhile_isDigit_text k'] at hdigits
    rw [← value_digits k.sequence, ← hdigits, value_digits]
  obtain ⟨trip, sequence⟩ := k
  simp only at htrip hsequence
  rw [htrip, hsequence]

/-- **Keys.** Every key makes an id that has the text of the key and is read from it. The text and
the id are those of no other key. -/
theorem keys_as_ids :
    (∀ k : CallKey, ∃ id, k.asId = .ok id ∧ id.text = k.text ∧ ScopedId.parse k.text = .ok id) ∧
    (∀ k k' : CallKey, k.text = k'.text ↔ k = k') ∧
    ∀ k k' : CallKey, k.asId = k'.asId ↔ k = k' := by
  refine ⟨fun k => ?_, fun k k' => ⟨eq_of_text_eq, congrArg text⟩,
    fun k k' => ⟨fun hid => ?_, congrArg asId⟩⟩
  · obtain ⟨id, hid, -, htext⟩ := exists_asId_eq_ok k
    refine ⟨id, hid, htext, ?_⟩
    rw [← htext, ScopedId.parse_text]
  · obtain ⟨id, hk, -, htext⟩ := exists_asId_eq_ok k
    obtain ⟨id', hk', -, htext'⟩ := exists_asId_eq_ok k'
    obtain rfl : id = id' := Except.ok.inj (hk.symm.trans (hid.trans hk'))
    exact eq_of_text_eq (htext.symm.trans htext')

end Interchange.CallKey
