import Interchange.Proofs.Json.ReadsBack
import Interchange.Proofs.Text.IdText
import Interchange.Proofs.Wire.Times

/-!
# The texts of ids and times

An id is read back from its text, whatever characters it has. A time is read back from its text
exactly if it is within two days (`ServiceTime.parse_text_iff`): the text of every other time
starts with a minus sign or with an hour that is too late or has too many digits.
-/

namespace Interchange

open Json

/-! ### Ids -/

namespace ScopedId

theorem readsBack_toJson (id : ScopedId) : ReadsBack ofJson id.toJson id True := by
  refine readsBack_text fun id' => ?_
  rw [mapError_eq_ok_iff, parse_eq_ok_iff, text_injective.eq_iff, true_and]

end ScopedId

/-! ### Times -/

namespace ServiceTime

/-! #### Digits -/

private theorem isDigit_of_mem_padded {width n : Nat} {c : Char} (h : c ∈ Decimal.padded width n) :
    c.isDigit = true := by
  rcases List.mem_append.mp h with h | h
  · obtain rfl := (List.mem_replicate.mp h).2
    decide
  · exact List.all_eq_true.mp (Decimal.all_isDigit_digits n) c h

/-- From a hundred on there is a third digit. -/
private theorem exists_padded_two_eq {n : Nat} (h : 100 ≤ n) :
    ∃ a b c cs, Decimal.padded 2 n = a :: b :: c :: cs := by
  have hlength : 2 < (Decimal.padded 2 n).length := by
    have hhundreds := List.length_pos_iff.mpr (Decimal.digits_ne_nil (n / 10 / 10))
    rw [Decimal.padded, Decimal.digits, if_neg (by omega), Decimal.digits, if_neg (by omega)]
    simp only [List.length_append, List.length_cons, List.length_nil]
    omega
  obtain ⟨a, as, ha⟩ := List.exists_cons_of_length_pos (Nat.lt_of_le_of_lt (Nat.zero_le 2) hlength)
  rw [ha, List.length_cons] at hlength
  obtain ⟨b, bs, hb⟩ := List.exists_cons_of_length_pos (by omega : 0 < as.length)
  rw [hb, List.length_cons] at hlength
  obtain ⟨c, cs, hc⟩ := List.exists_cons_of_length_pos (by omega : 0 < bs.length)
  exact ⟨a, b, c, cs, by rw [ha, hb, hc]⟩

/-! #### Whole texts -/

private theorem hms_eq_of_seconds {t : ServiceTime} {hours minutes seconds : Int}
    (h : hours * 3600 + minutes * 60 + seconds = t.seconds) : hms hours minutes seconds = t := by
  apply ServiceTime.ext
  rw [hms, h, seconds_ofSeconds, clampShort_of_mem t.mem]

/-- The text of a time within two days is a clock text. -/
theorem clockText_text {t : ServiceTime} (h : t.Readable) :
    ClockText t.text.toList (t.seconds.natAbs / 3600) (t.seconds.natAbs % 3600 / 60)
      (t.seconds.natAbs % 60) := by
  obtain ⟨hzero, hlast⟩ := h
  have hhour : t.seconds.natAbs / 3600 ≤ 47 := by omega
  have hminute : t.seconds.natAbs % 3600 / 60 ≤ 59 := by omega
  have hsecond : t.seconds.natAbs % 60 ≤ 59 := by omega
  rw [toList_text, if_neg (Int.not_lt.mpr hzero), List.nil_append, padded_two (by omega),
    padded_two (by omega)]
  -- the seconds are left out when they are zero
  by_cases hfull : t.seconds.natAbs % 60 = 0
  · rw [if_pos hfull, hfull]
    exact .short (twoDigits_digit (by omega)) hhour (twoDigits_digit (by omega)) hminute
  · rw [if_neg hfull, padded_two (by omega)]
    exact .full (twoDigits_digit (by omega)) hhour (twoDigits_digit (by omega)) hminute
      (twoDigits_digit (by omega)) hsecond

theorem parse_text {t : ServiceTime} (h : t.Readable) : parse t.text = .ok t := by
  refine parse_eq_ok_iff.mpr ⟨_, _, _, clockText_text h, ?_⟩
  have hzero := h.1
  exact (hms_eq_of_seconds (by omega)).symm

private theorem readable_of_parse_text {t t' : ServiceTime} (h : parse t.text = .ok t') :
    t.Readable := by
  obtain ⟨hour, minute, second, htext, -⟩ := parse_eq_ok_iff.mp h
  obtain ⟨a, b, rest, hcs, hdigits⟩ := htext.exists_hour
  rw [toList_text, List.append_assoc, List.append_assoc] at hcs
  by_cases hneg : t.seconds < 0
  · -- the minus sign is no digit
    rw [if_pos hneg] at hcs
    obtain rfl : '-' = a := (List.cons.inj hcs).1
    exact absurd hdigits.tens (by decide)
  rw [if_neg hneg, List.nil_append] at hcs
  have hlate : t.seconds.natAbs / 3600 ≤ 47 := by
    rcases Nat.lt_or_ge (t.seconds.natAbs / 3600) 100 with hlt | hge
    · rw [padded_two hlt] at hcs
      simp only [List.cons_append, List.cons.injEq] at hcs
      rw [← hcs.1, ← hcs.2.1] at hdigits
      rw [(twoDigits_digit hlt).eq, ← hdigits.eq]
      exact htext.hour_le
    · -- where the colon should stand there is a third digit
      obtain ⟨c, c', c'', cs, hpadded⟩ := exists_padded_two_eq hge
      have hmem : c'' ∈ Decimal.padded 2 (t.seconds.natAbs / 3600) := by simp [hpadded]
      have hdigit := isDigit_of_mem_padded hmem
      rw [hpadded] at hcs
      simp only [List.cons_append, List.cons.injEq] at hcs
      rw [hcs.2.2.1] at hdigit
      exact absurd hdigit (by decide)
  rw [Readable]
  omega

/-- **Times.** A time is read back from its text exactly if it is within two days. -/
theorem parse_text_iff {t t' : ServiceTime} : parse t.text = .ok t' ↔ t.Readable ∧ t' = t := by
  constructor
  · intro h
    have hreadable := readable_of_parse_text h
    rw [parse_text hreadable] at h
    exact ⟨hreadable, (Except.ok.inj h).symm⟩
  · rintro ⟨h, rfl⟩
    exact parse_text h

/-- A time comes back exactly if it can be read. -/
theorem readsBack_toJson (t : ServiceTime) : ReadsBack ofJson t.toJson t t.Readable :=
  readsBack_text fun _ => mapError_eq_ok_iff.trans parse_text_iff

end ServiceTime

end Interchange
