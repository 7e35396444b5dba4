import Interchange.ServiceTime
import Interchange.Proofs.Checks
import Interchange.Proofs.Text.Numeral

/-!
# Clock texts

Which texts are times? A `ClockText` is `HH:MM` or `HH:MM:SS`, with two digits each for an hour up
to 47, for a minute and for a second. The reader accepts these and nothing else
(`ServiceTime.parse_eq_ok_iff`), and what it has read is written as it was given, apart from seconds
that are zero (`ServiceTime.toList_text_of_clockText`).

A text is read by its places, of which a character outside ASCII takes several. Such a character is
in no clock text, so there every character takes one place (`ServiceTime.clockText_places_iff`).
-/

namespace Interchange.ServiceTime

open Decimal

/-! ### Two digits -/

/-- Two ASCII digits that stand for `n`. -/
structure TwoDigits (a b : Char) (n : Nat) : Prop where
  tens : a.isDigit = true
  units : b.isDigit = true
  eq : n = digitValue a * 10 + digitValue b

variable {a b : Char} {cs : List Char} {h m n s : Nat} {t : ServiceTime}

theorem pair?_eq_some_iff : pair? a b = some n ↔ TwoDigits a b n := by
  have hvalue : value [a, b] = digitValue a * 10 + digitValue b := by simp [value]
  rw [pair?, natural?, Option.ite_none_right_eq_some, hvalue, Option.some.injEq]
  constructor
  · rintro ⟨⟨-, hdigits⟩, rfl⟩
    simp only [List.all_cons, List.all_nil, Bool.and_true, Bool.and_eq_true] at hdigits
    exact ⟨hdigits.1, hdigits.2, rfl⟩
  · intro hn
    exact ⟨⟨List.cons_ne_nil _ _, by simp [hn.tens, hn.units]⟩, hn.eq.symm⟩

/-- A pair of digits is taken up to its limit. -/
theorem readPair_eq_ok_iff {limit : Nat} {digits range : ServiceTimeError} :
    readPair a b limit digits range = .ok n ↔ TwoDigits a b n ∧ n ≤ limit := by
  rw [readPair, ← pair?_eq_some_iff]
  constructor
  · intro hread
    split at hread
    · cases hread
    next hpair =>
      split_ifs at hread with hlimit
      obtain rfl := Except.ok.inj hread
      exact ⟨hpair, Nat.not_lt.mp hlimit⟩
  · rintro ⟨hpair, hle⟩
    rw [hpair]
    exact if_neg (Nat.not_lt.mpr hle)

/-- Below a hundred two digits are enough. -/
theorem twoDigits_digit (hn : n < 100) : TwoDigits (digit (n / 10)) (digit (n % 10)) n := by
  have htens : n / 10 < 10 := by omega
  have hunits : n % 10 < 10 := by omega
  refine ⟨isDigit_digit htens, isDigit_digit hunits, ?_⟩
  rw [digitValue_digit htens, digitValue_digit hunits]
  omega

theorem padded_two (hn : n < 100) : padded 2 n = [digit (n / 10), digit (n % 10)] := by
  rw [padded, digits]
  split_ifs with hlt
  · rw [Nat.div_eq_of_lt hlt, Nat.mod_eq_of_lt hlt]
    rfl
  · rw [digits, if_pos (by omega)]
    rfl

theorem digit_digitValue (ha : a.isDigit = true) : digit (digitValue a) = a := by
  simp only [Char.isDigit, Bool.and_eq_true, decide_eq_true_eq] at ha
  have hle : 48 ≤ a.toNat := ha.1
  rw [digit, digitValue, Nat.add_sub_cancel' hle, Char.ofNat_toNat]

private theorem TwoDigits.lt_hundred (hn : TwoDigits a b n) : n < 100 := by
  have ha := digitValue_lt_ten hn.tens
  have hb := digitValue_lt_ten hn.units
  have heq := hn.eq
  omega

/-- Two digits are how the number for which they stand is written. -/
private theorem TwoDigits.padded_eq (hn : TwoDigits a b n) : padded 2 n = [a, b] := by
  have hb := digitValue_lt_ten hn.units
  have hdiv : n / 10 = digitValue a := by rw [hn.eq]; omega
  have hmod : n % 10 = digitValue b := by rw [hn.eq]; omega
  rw [padded_two hn.lt_hundred, hdiv, hmod, digit_digitValue hn.tens, digit_digitValue hn.units]

/-! ### Clock texts -/

/-- **Clock texts.** Two digits each for the hour, the minute and, in the longer form, the
second. -/
inductive ClockText : List Char → Nat → Nat → Nat → Prop where
  | short {a b c d : Char} {h m : Nat} : TwoDigits a b h → h ≤ 47 → TwoDigits c d m → m ≤ 59 →
      ClockText [a, b, ':', c, d] h m 0
  | full {a b c d e f : Char} {h m s : Nat} : TwoDigits a b h → h ≤ 47 → TwoDigits c d m → m ≤ 59 →
      TwoDigits e f s → s ≤ 59 → ClockText [a, b, ':', c, d, ':', e, f] h m s

private theorem utf8Size_of_isDigit {c : Char} (h : c.isDigit = true) : c.utf8Size = 1 := by
  simp only [Char.isDigit, Bool.and_eq_true, decide_eq_true_eq] at h
  rw [Char.utf8Size]
  exact if_pos (UInt32.le_trans h.2 (by decide))

namespace ClockText

theorem hour_le (htext : ClockText cs h m s) : h ≤ 47 := by
  cases htext <;> assumption

theorem minute_le (htext : ClockText cs h m s) : m ≤ 59 := by
  cases htext <;> assumption

theorem second_le (htext : ClockText cs h m s) : s ≤ 59 := by
  cases htext with
  | short => exact Nat.zero_le 59
  | full _ _ _ _ _ hs => exact hs

/-- A text on the clock begins with two digits and a colon. -/
theorem exists_hour (htext : ClockText cs h m s) :
    ∃ a b rest, cs = a :: b :: ':' :: rest ∧ TwoDigits a b h := by
  cases htext with
  | short hh => exact ⟨_, _, _, rfl, hh⟩
  | full hh => exact ⟨_, _, _, rfl, hh⟩

theorem length_eq (htext : ClockText cs h m s) : cs.length = 5 ∨ cs.length = 8 := by
  cases htext with
  | short => exact .inl rfl
  | full => exact .inr rfl

private theorem utf8Size_eq_one (htext : ClockText cs h m s) : ∀ c ∈ cs, c.utf8Size = 1 := by
  have hcolon : ':'.utf8Size = 1 := by decide
  cases htext with
  | short hh _ hm _ =>
    simp [hcolon, utf8Size_of_isDigit hh.tens, utf8Size_of_isDigit hh.units,
      utf8Size_of_isDigit hm.tens, utf8Size_of_isDigit hm.units]
  | full hh _ hm _ hs _ =>
    simp [hcolon, utf8Size_of_isDigit hh.tens, utf8Size_of_isDigit hh.units,
      utf8Size_of_isDigit hm.tens, utf8Size_of_isDigit hm.units, utf8Size_of_isDigit hs.tens,
      utf8Size_of_isDigit hs.units]

end ClockText

/-! ### Reading -/

/-- A text on the clock is read as the time that it shows. -/
private theorem parsePlaces_of_clockText (htext : ClockText cs h m s) :
    parsePlaces cs = .ok (hms h m s) := by
  cases htext with
  | short hh hhour hm hminute =>
    simp only [parsePlaces, ne_eq, not_true_eq_false, if_false]
    refine bind_eq_ok_iff.mpr ⟨h, readPair_eq_ok_iff.mpr ⟨hh, hhour⟩, ?_⟩
    exact bind_eq_ok_iff.mpr ⟨m, readPair_eq_ok_iff.mpr ⟨hm, hminute⟩, rfl⟩
  | full hh hhour hm hminute hs hsecond =>
    simp only [parsePlaces, ne_eq, not_true_eq_false, or_self, if_false]
    refine bind_eq_ok_iff.mpr ⟨h, readPair_eq_ok_iff.mpr ⟨hh, hhour⟩, ?_⟩
    refine bind_eq_ok_iff.mpr ⟨m, readPair_eq_ok_iff.mpr ⟨hm, hminute⟩, ?_⟩
    exact bind_eq_ok_iff.mpr ⟨s, readPair_eq_ok_iff.mpr ⟨hs, hsecond⟩, rfl⟩

/-- Nothing is read that is no text on the clock. -/
private theorem exists_clockText_of_parsePlaces (hread : parsePlaces cs = .ok t) :
    ∃ h m s : Nat, ClockText cs h m s ∧ t = hms h m s := by
  unfold parsePlaces at hread
  split at hread
  · split_ifs at hread with hcolon
    obtain ⟨h, hh, hread⟩ := bind_eq_ok_iff.mp hread
    obtain ⟨m, hm, hread⟩ := bind_eq_ok_iff.mp hread
    obtain ⟨hh, hhour⟩ := readPair_eq_ok_iff.mp hh
    obtain ⟨hm, hminute⟩ := readPair_eq_ok_iff.mp hm
    obtain rfl := not_not.mp hcolon
    exact ⟨h, m, 0, .short hh hhour hm hminute, (Except.ok.inj hread).symm⟩
  · split_ifs at hread with hcolons
    obtain ⟨h, hh, hread⟩ := bind_eq_ok_iff.mp hread
    obtain ⟨m, hm, hread⟩ := bind_eq_ok_iff.mp hread
    obtain ⟨s, hs, hread⟩ := bind_eq_ok_iff.mp hread
    obtain ⟨hh, hhour⟩ := readPair_eq_ok_iff.mp hh
    obtain ⟨hm, hminute⟩ := readPair_eq_ok_iff.mp hm
    obtain ⟨hs, hsecond⟩ := readPair_eq_ok_iff.mp hs
    obtain ⟨hcolon, hcolon'⟩ := not_or.mp hcolons
    obtain rfl := not_not.mp hcolon
    obtain rfl := not_not.mp hcolon'
    exact ⟨h, m, s, .full hh hhour hm hminute hs hsecond, (Except.ok.inj hread).symm⟩
  · cases hread

private theorem places_eq_self (h : ∀ c ∈ cs, c.utf8Size = 1) : places cs = cs := by
  induction cs with
  | nil => rfl
  | cons c cs ih =>
    obtain ⟨hc, hcs⟩ := List.forall_mem_cons.mp h
    have htail : cs.flatMap (fun c => List.replicate c.utf8Size c) = cs := ih hcs
    rw [places, List.flatMap_cons, hc, htail]
    rfl

private theorem mem_places {c : Char} (hc : c ∈ cs) : c ∈ places cs :=
  List.mem_flatMap.mpr ⟨c, hc, List.mem_replicate.mpr ⟨Nat.ne_of_gt c.utf8Size_pos, rfl⟩⟩

/-- A text with a character outside ASCII is no clock text, not even in its places. -/
theorem clockText_places_iff : ClockText (places cs) h m s ↔ ClockText cs h m s := by
  constructor
  · intro htext
    have hascii : ∀ c ∈ cs, c.utf8Size = 1 := fun c hc => htext.utf8Size_eq_one c (mem_places hc)
    rwa [places_eq_self hascii] at htext
  · intro htext
    rwa [places_eq_self htext.utf8Size_eq_one]

/-- **Reading.** A text is read exactly if it is a clock text. -/
theorem parse_eq_ok_iff {text : String} :
    parse text = .ok t ↔ ∃ h m s : Nat, ClockText text.toList h m s ∧ t = hms h m s := by
  constructor
  · intro hread
    obtain ⟨h, m, s, htext, ht⟩ := exists_clockText_of_parsePlaces hread
    exact ⟨h, m, s, clockText_places_iff.mp htext, ht⟩
  · rintro ⟨h, m, s, htext, rfl⟩
    exact parsePlaces_of_clockText (clockText_places_iff.mpr htext)

/-- What is read is not cut off. -/
theorem ClockText.seconds_hms (htext : ClockText cs h m s) :
    (hms h m s).seconds = h * 3600 + m * 60 + s := by
  have hh := htext.hour_le
  have hm := htext.minute_le
  have hs := htext.second_le
  rw [hms, seconds_ofSeconds, clampShort_of_mem]
  rw [minShort, maxShort]
  omega

/-! ### Writing -/

/-- The characters of a written time: sign, hours, minutes and, unless zero, seconds. -/
theorem toList_text (t : ServiceTime) :
    t.text.toList = (if t.seconds < 0 then ['-'] else []) ++
      (padded 2 (t.seconds.natAbs / 3600) ++ ':' :: padded 2 (t.seconds.natAbs % 3600 / 60)) ++
      (if t.seconds.natAbs % 60 = 0 then [] else ':' :: padded 2 (t.seconds.natAbs % 60)) := by
  rw [text, String.toList_ofList]

/-- A clock text without its seconds, if it has some and they are zero. -/
def withoutZeroSeconds (cs : List Char) : List Char :=
  if cs.drop 5 = [':', '0', '0'] then cs.take 5 else cs

private theorem TwoDigits.eq_zeros_iff (hn : TwoDigits a b n) : a = '0' ∧ b = '0' ↔ n = 0 := by
  constructor
  · rintro ⟨rfl, rfl⟩
    rw [hn.eq]
    decide
  · rintro rfl
    have hzero : padded 2 0 = ['0', '0'] := by simp [padded, digits, digit]
    have hzeros := hzero.symm.trans hn.padded_eq
    simp only [List.cons.injEq, and_true] at hzeros
    exact ⟨hzeros.1.symm, hzeros.2.symm⟩

/-- **Writing.** What has been read is written as it was given, apart from seconds that are zero. -/
theorem toList_text_of_clockText (htext : ClockText cs h m s) :
    (hms h m s).text.toList = withoutZeroSeconds cs := by
  have hseconds := htext.seconds_hms
  have hm := htext.minute_le
  have hs := htext.second_le
  have hhours : (hms h m s).seconds.natAbs / 3600 = h := by omega
  have hminutes : (hms h m s).seconds.natAbs % 3600 / 60 = m := by omega
  have hrest : (hms h m s).seconds.natAbs % 60 = s := by omega
  rw [toList_text, hhours, hminutes, hrest, if_neg (by omega), List.nil_append]
  cases htext with
  | short hh _ hm _ =>
    rw [hh.padded_eq, hm.padded_eq]
    rfl
  | full hh _ hm _ hs _ =>
    rw [hh.padded_eq, hm.padded_eq, hs.padded_eq]
    simp only [withoutZeroSeconds, List.drop_succ_cons, List.drop_zero, List.cons.injEq, true_and,
      and_true, hs.eq_zeros_iff]
    split_ifs <;> rfl

end Interchange.ServiceTime
