import Interchange.Proofs.Wire.Texts
import Mathlib.Data.List.Forall2

/-!
# Times by their bytes

A text is kept as bytes, and a character outside ASCII takes several. `ServiceTime.readBytes` finds
its way by the positions of bytes, and is careful: it stops where a position is beyond the end and
where a number does not have 32 bits. That never happens, and it ends as the reader of characters
does (`ServiceTime.readBytes_toUTF8`): no byte of a character outside ASCII is a digit or a colon,
so nothing is lost if the character stands in its places instead.

With it the reader and the writer of times are settled for all texts and all times
(`ServiceTime.clock_texts`).
-/

namespace Interchange.ServiceTime

open Decimal

variable {cs : List Char} {h m n s : Nat}

/-! ### Reading bytes -/

/-- How reading bytes can fail. -/
inductive ReadFault where
  | refused (e : ServiceTimeError)
  /-- The position is beyond the end -/
  | noByte
  /-- The number does not have 32 bits -/
  | overflow
deriving DecidableEq

/-- The byte at a position. -/
def byteAt (bytes : List UInt8) (i : Nat) : Except ReadFault UInt8 :=
  bytes[i]?.elim (.error .noByte) .ok

/-- The number, if it has 32 bits. -/
def fit (n : Nat) : Except ReadFault Nat :=
  if (n : Int) ≤ maxShort then .ok n else .error .overflow

/-- Checks that a byte is a colon. -/
def colonAt (bytes : List UInt8) (i : Nat) : Except ReadFault Unit := do
  let byte ← byteAt bytes i
  if byte.toNat = 58 then .ok () else .error (.refused .separators)

/-- The number that a byte stands for as an ASCII digit. -/
def digitAt (bytes : List UInt8) (i : Nat) (fault : ServiceTimeError) : Except ReadFault Nat := do
  let byte ← byteAt bytes i
  if 48 ≤ byte.toNat ∧ byte.toNat ≤ 57 then .ok (byte.toNat - 48) else .error (.refused fault)

/-- The number that two bytes stand for, with an upper limit. -/
def pairAt (bytes : List UInt8) (i limit : Nat) (digits range : ServiceTimeError) :
    Except ReadFault Nat := do
  let tens ← digitAt bytes i digits
  let units ← digitAt bytes (i + 1) digits
  let tens ← fit (tens * 10)
  let n ← fit (tens + units)
  if limit < n then .error (.refused range) else .ok n

/-- The time of the given hours, minutes and seconds. -/
def sumUp (h m s : Nat) : Except ReadFault ServiceTime := do
  let hours ← fit (h * 3600)
  let minutes ← fit (m * 60)
  let sum ← fit (hours + minutes)
  let total ← fit (sum + s)
  return ofSeconds total

/-- Reads a time from the bytes of its text. -/
def readBytes (bytes : List UInt8) : Except ReadFault ServiceTime :=
  if bytes.length = 5 then do
    colonAt bytes 2
    let h ← pairAt bytes 0 lastHour .hourDigits .hourRange
    let m ← pairAt bytes 3 59 .minuteDigits .minuteRange
    sumUp h m 0
  else if bytes.length = 8 then do
    colonAt bytes 2
    colonAt bytes 5
    let h ← pairAt bytes 0 lastHour .hourDigits .hourRange
    let m ← pairAt bytes 3 59 .minuteDigits .minuteRange
    let s ← pairAt bytes 6 59 .secondDigits .secondRange
    sumUp h m s
  else .error (.refused .length)

/-! #### Bytes and places -/

/-- A byte shows a character in one of its places: it is that character, or both are outside
ASCII. -/
def Shows (c : Char) (byte : UInt8) : Prop :=
  byte.toNat = c.toNat ∨ 128 ≤ c.toNat ∧ 128 ≤ byte.toNat

/-- A byte with its highest bit set keeps it when more bits are set. -/
private theorem le_toNat_or (x : UInt8) {y : UInt8} (hy : 128 ≤ y.toNat) :
    128 ≤ (x ||| y).toNat := by
  rw [UInt8.toNat_or]
  exact Nat.le_trans hy Nat.right_le_or

/-- Each byte of a character shows the character: itself in ASCII, and otherwise no ASCII at all. -/
private theorem shows_of_mem_utf8EncodeChar {c : Char} :
    ∀ byte ∈ String.utf8EncodeChar c, Shows c byte := by
  by_cases hone : c.utf8Size = 1
  · have hle : c.toNat ≤ 127 := UInt32.le_iff_toNat_le.mp (Char.utf8Size_eq_one_iff.mp hone)
    rw [String.utf8EncodeChar_eq_singleton hone, List.forall_mem_singleton]
    refine .inl ?_
    rw [UInt32.toNat_toUInt8]
    exact Nat.mod_eq_of_lt (Nat.lt_of_le_of_lt hle (by decide))
  · have hlt : 128 ≤ c.toNat := by
      by_contra hge
      refine hone (Char.utf8Size_eq_one_iff.mpr (UInt32.le_iff_toNat_le.mpr ?_))
      exact Nat.le_of_lt_succ (Nat.lt_of_not_le hge)
    -- every byte of such a character has its highest bit set
    have hbytes : ∀ byte ∈ String.utf8EncodeChar c, 128 ≤ byte.toNat := by
      have htail (x : UInt8) : 128 ≤ (x ||| 128).toNat := le_toNat_or x (by decide)
      rcases c.utf8Size_eq with h | h | h | h
      · exact absurd h hone
      · rw [String.utf8EncodeChar_eq_cons_cons h]
        simp only [List.forall_mem_cons]
        exact ⟨le_toNat_or _ (by decide), htail _, List.forall_mem_nil _⟩
      · rw [String.utf8EncodeChar_eq_cons_cons_cons h]
        simp only [List.forall_mem_cons]
        exact ⟨le_toNat_or _ (by decide), htail _, htail _, List.forall_mem_nil _⟩
      · rw [String.utf8EncodeChar_eq_cons_cons_cons_cons h]
        simp only [List.forall_mem_cons]
        exact ⟨le_toNat_or _ (by decide), htail _, htail _, htail _, List.forall_mem_nil _⟩
    exact fun byte hbyte => .inr ⟨hlt, hbytes byte hbyte⟩

/-- Place by place, the bytes of a text show its characters. -/
private theorem forall₂_shows_places (cs : List Char) :
    List.Forall₂ Shows (places cs) (cs.flatMap String.utf8EncodeChar) := by
  induction cs with
  | nil => exact .nil
  | cons c cs ih =>
    rw [places, List.flatMap_cons, List.flatMap_cons]
    refine List.rel_append ?_ ih
    rw [← String.length_utf8EncodeChar, ← List.map_const', List.forall₂_map_left_iff,
      List.forall₂_same]
    exact shows_of_mem_utf8EncodeChar

private theorem toList_toUTF8 (text : String) :
    text.toUTF8.data.toList = text.toList.flatMap String.utf8EncodeChar := by
  rw [String.toUTF8, ← String.utf8Encode_toList, List.utf8Encode, List.toList_data_toByteArray]

/-! #### Byte by byte -/

variable {bytes : List UInt8} {byte byte' : UInt8} {c c' : Char} {i limit : Nat}
  {digits range : ServiceTimeError}

private theorem Shows.eq_colon_iff (hshows : Shows c byte) : byte.toNat = 58 ↔ c = ':' := by
  rw [Char.ext_iff, ← UInt32.toNat_inj]
  change byte.toNat = 58 ↔ c.toNat = 58
  rcases hshows with heq | hascii <;> omega

private theorem Shows.isDigit_iff (hshows : Shows c byte) :
    48 ≤ byte.toNat ∧ byte.toNat ≤ 57 ↔ c.isDigit = true := by
  rw [Char.isDigit, Bool.and_eq_true, decide_eq_true_eq, decide_eq_true_eq]
  change _ ↔ 48 ≤ c.toNat ∧ c.toNat ≤ 57
  rcases hshows with heq | hascii <;> omega

private theorem Shows.digitValue_eq (hshows : Shows c byte) (hc : c.isDigit = true) :
    byte.toNat - 48 = digitValue c := by
  have hbyte := hshows.isDigit_iff.mpr hc
  rw [digitValue]
  rcases hshows with heq | hascii <;> omega

/-- Where a character stands there is a byte. -/
private theorem exists_byteAt_eq (hshows : List.Forall₂ Shows cs bytes) (hc : cs[i]? = some c) :
    ∃ byte, byteAt bytes i = .ok byte ∧ Shows c byte := by
  obtain ⟨hi, rfl⟩ := List.getElem?_eq_some_iff.mp hc
  have hi' : i < bytes.length := hshows.length_eq ▸ hi
  refine ⟨bytes[i], ?_, hshows.get hi hi'⟩
  rw [byteAt, List.getElem?_eq_getElem hi']
  rfl

/-- Numbers below a million are within the width of the arithmetic. -/
private theorem fit_eq (hn : n < 1000000) : fit n = .ok n := by
  refine if_pos ?_
  rw [maxShort]
  omega

private theorem colonAt_eq (hshows : List.Forall₂ Shows cs bytes) (hc : cs[i]? = some c) :
    colonAt bytes i = if c = ':' then .ok () else .error (.refused .separators) := by
  obtain ⟨byte, hbyte, hc⟩ := exists_byteAt_eq hshows hc
  have hcolon : colonAt bytes i =
      if byte.toNat = 58 then .ok () else .error (.refused .separators) := by
    rw [colonAt, hbyte]
    rfl
  rw [hcolon]
  exact if_congr hc.eq_colon_iff rfl rfl

private theorem digitAt_eq (hshows : List.Forall₂ Shows cs bytes) (hc : cs[i]? = some c) :
    digitAt bytes i digits =
      if c.isDigit then .ok (digitValue c) else .error (.refused digits) := by
  obtain ⟨byte, hbyte, hc⟩ := exists_byteAt_eq hshows hc
  have hdigit : digitAt bytes i digits =
      if 48 ≤ byte.toNat ∧ byte.toNat ≤ 57 then .ok (byte.toNat - 48)
      else .error (.refused digits) := by
    rw [digitAt, hbyte]
    rfl
  rw [hdigit, if_congr hc.isDigit_iff rfl rfl]
  split_ifs with hdigit
  · rw [hc.digitValue_eq hdigit]
  · rfl

/-- Two bytes are read like the two characters that they show. -/
private theorem pairAt_eq (hshows : List.Forall₂ Shows cs bytes) (hc : cs[i]? = some c)
    (hc' : cs[i + 1]? = some c') :
    pairAt bytes i limit digits range = (readPair c c' limit digits range).mapError .refused := by
  rw [pairAt, digitAt_eq hshows hc, digitAt_eq hshows hc', readPair]
  by_cases hdigits : c.isDigit = true ∧ c'.isDigit = true
  · have hpair := pair?_eq_some_iff.mpr ⟨hdigits.1, hdigits.2, rfl⟩
    have htens := digitValue_lt_ten hdigits.1
    have hunits := digitValue_lt_ten hdigits.2
    -- two digits make at most 99, far below any overflow
    have hfit := fit_eq (by omega : digitValue c * 10 < 1000000)
    have hfit' := fit_eq (by omega : digitValue c * 10 + digitValue c' < 1000000)
    rw [hpair, if_pos hdigits.1, if_pos hdigits.2]
    simp only [bind, Except.bind, hfit, hfit']
    split_ifs <;> rfl
  · have hpair : pair? c c' = none := by
      rw [Option.eq_none_iff_forall_ne_some]
      intro n hn
      have htwo := pair?_eq_some_iff.mp hn
      exact hdigits ⟨htwo.tens, htwo.units⟩
    rw [hpair]
    by_cases hc : c.isDigit = true
    · rw [if_pos hc, if_neg fun hc' => hdigits ⟨hc, hc'⟩]
      rfl
    · rw [if_neg hc]
      rfl

/-- The sum of hours, minutes and seconds does not overflow. -/
private theorem sumUp_eq (hh : h ≤ 47) (hm : m ≤ 59) (hs : s ≤ 59) :
    sumUp h m s = .ok (hms h m s) := by
  have hhours := fit_eq (by omega : h * 3600 < 1000000)
  have hminutes := fit_eq (by omega : m * 60 < 1000000)
  have hsum := fit_eq (by omega : h * 3600 + m * 60 < 1000000)
  have htotal := fit_eq (by omega : h * 3600 + m * 60 + s < 1000000)
  simp only [sumUp, bind, Except.bind, hhours, hminutes, hsum, htotal, pure, Except.pure, hms]
  push_cast
  rfl

/-! #### Whole texts -/

/-- The places of a time without seconds, each by its own name. -/
private theorem exists_eq_of_length_five (hlength : cs.length = 5) :
    ∃ a b c d e : Char, cs = [a, b, c, d, e] := by
  match cs, hlength with
  | [a, b, c, d, e], _ => exact ⟨a, b, c, d, e, rfl⟩

/-- The places of a time with seconds. -/
private theorem exists_eq_of_length_eight (hlength : cs.length = 8) :
    ∃ a b c d e f g k : Char, cs = [a, b, c, d, e, f, g, k] := by
  match cs, hlength with
  | [a, b, c, d, e, f, g, k], _ => exact ⟨a, b, c, d, e, f, g, k, rfl⟩

private theorem parsePlaces_of_length (hfive : cs.length ≠ 5) (height : cs.length ≠ 8) :
    parsePlaces cs = .error .length := by
  unfold parsePlaces
  split
  · exact absurd rfl hfive
  · exact absurd rfl height
  · rfl

/-- Reading bytes is reading the places that they show, and never goes out of bounds. -/
theorem readBytes_eq (hshows : List.Forall₂ Shows cs bytes) :
    readBytes bytes = (parsePlaces cs).mapError .refused := by
  rw [readBytes, ← hshows.length_eq]
  by_cases hfive : cs.length = 5
  · obtain ⟨a, b, c, d, e, rfl⟩ := exists_eq_of_length_five hfive
    rw [if_pos hfive, colonAt_eq hshows rfl, pairAt_eq hshows rfl rfl, pairAt_eq hshows rfl rfl,
      parsePlaces]
    by_cases hcolon : c = ':'
    · rw [if_pos hcolon, if_neg (not_not.mpr hcolon)]
      -- each part has been checked when the parts are added up
      exact mapError_bind_eq fun h hh => mapError_bind_eq fun m hm =>
        sumUp_eq (readPair_eq_ok_iff.mp hh).2 (readPair_eq_ok_iff.mp hm).2 (Nat.zero_le 59)
    · rw [if_neg hcolon, if_pos hcolon]
      rfl
  by_cases height : cs.length = 8
  · obtain ⟨a, b, c, d, e, f, g, k, rfl⟩ := exists_eq_of_length_eight height
    rw [if_neg hfive, if_pos height, colonAt_eq hshows rfl, colonAt_eq hshows rfl,
      pairAt_eq hshows rfl rfl, pairAt_eq hshows rfl rfl, pairAt_eq hshows rfl rfl, parsePlaces]
    by_cases hcolons : c = ':' ∧ f = ':'
    · rw [if_pos hcolons.1, if_pos hcolons.2,
        if_neg (not_or.mpr ⟨not_not.mpr hcolons.1, not_not.mpr hcolons.2⟩)]
      exact mapError_bind_eq fun h hh => mapError_bind_eq fun m hm => mapError_bind_eq fun s hs =>
        sumUp_eq (readPair_eq_ok_iff.mp hh).2 (readPair_eq_ok_iff.mp hm).2
          (readPair_eq_ok_iff.mp hs).2
    · rw [if_pos (not_and_or.mp hcolons)]
      by_cases hcolon : c = ':'
      · rw [if_pos hcolon, if_neg fun hcolon' => hcolons ⟨hcolon, hcolon'⟩]
        rfl
      · rw [if_neg hcolon]
        rfl
  · rw [if_neg hfive, if_neg height, parsePlaces_of_length hfive height]
    rfl

/-- **Bytes.** Every text can be read byte by byte without leaving it and without overflow. -/
theorem readBytes_toUTF8 (text : String) :
    readBytes text.toUTF8.data.toList = (parse text).mapError .refused := by
  rw [toList_toUTF8, parse]
  exact readBytes_eq (forall₂_shows_places text.toList)

/-! ### Both ways -/

/-- **Clock texts.** The reader accepts the clock texts and nothing else, and returns the number of
seconds without cutting it off; reading byte by byte it never leaves the text and never exceeds 32
bits. What it has read is written as it was given, apart from seconds that are zero. A time is read
back from its text exactly if it is within two days. -/
theorem clock_texts :
    (∀ (text : String) (h m s : Nat), ClockText text.toList h m s →
      ∃ t, parse text = .ok t ∧ t.seconds = h * 3600 + m * 60 + s ∧
        t.text.toList = withoutZeroSeconds text.toList) ∧
    (∀ text : String, (∀ h m s, ¬ ClockText text.toList h m s) → ∃ e, parse text = .error e) ∧
    (∀ text : String, readBytes text.toUTF8.data.toList = (parse text).mapError .refused) ∧
    ∀ t : ServiceTime,
      (0 ≤ t.seconds ∧ t.seconds ≤ 172799 → parse t.text = .ok t) ∧
      (¬ (0 ≤ t.seconds ∧ t.seconds ≤ 172799) → ∃ e, parse t.text = .error e) := by
  refine ⟨fun text h m s htext => ?_, fun text hno => ?_, readBytes_toUTF8, fun t => ⟨?_, ?_⟩⟩
  · exact ⟨hms h m s, parse_eq_ok_iff.mpr ⟨h, m, s, htext, rfl⟩, htext.seconds_hms,
      toList_text_of_clockText htext⟩
  · cases hread : parse text with
    | error e => exact ⟨e, rfl⟩
    | ok t =>
      obtain ⟨h, m, s, htext, -⟩ := parse_eq_ok_iff.mp hread
      exact absurd htext (hno h m s)
  · exact fun hwithin => parse_text hwithin
  · intro hbeyond
    cases hread : parse t.text with
    | error e => exact ⟨e, rfl⟩
    | ok t' => exact absurd (parse_text_iff.mp hread).1 hbeyond

/-- The last minute that is read, a text of five bytes that is none, the last time that is read back
and the least of all times. -/
theorem clock_texts_lastMinute :
    let last : ServiceTime := ⟨172799, by decide⟩
    let least : ServiceTime := ⟨minShort, by decide⟩
    (∃ t, parse "47:59:00" = .ok t ∧ t.seconds = 172740 ∧ t.text.toList = "47:59".toList) ∧
    (∃ e, parse "é:05" = .error e) ∧
    parse last.text = .ok last ∧ ∃ e, parse least.text = .error e := by
  intro last least
  obtain ⟨haccepts, hrejects, -, htimes⟩ := clock_texts
  have hlast : ClockText "47:59:00".toList 47 59 0 :=
    .full ⟨rfl, rfl, rfl⟩ (by decide) ⟨rfl, rfl, rfl⟩ (by decide) ⟨rfl, rfl, rfl⟩ (by decide)
  refine ⟨haccepts "47:59:00" 47 59 0 hlast, hrejects "é:05" fun h m s htext => ?_,
    (htimes last).1 (by decide), (htimes least).2 (by decide)⟩
  -- it has five bytes, but only four characters
  exact absurd htext.length_eq (by decide)

end Interchange.ServiceTime
