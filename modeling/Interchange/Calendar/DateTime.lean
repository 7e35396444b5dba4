import Interchange.Text.Decimal
import Interchange.Text.WhiteSpace

/-!
# Calendar moments

A `DateTime` is a date of the Gregorian calendar, extended to all years, with a time of day
down to the nanosecond and no time zone. Second 60 is a leap second: it comes after every
fraction of second 59 and before the next minute.

Moments are ordered by `rank`, a count in which every field weighs more than all fields
after it together. `DateTime.read?` accepts blanks between the parts and fields without
leading zeros; `DateTime.text` writes one form of each moment.
-/

namespace Interchange

/-! ### The calendar -/

/-- Every fourth year is a leap year, save the centuries that 400 does not divide. -/
def isLeapYear (year : Int) : Bool := year % 4 = 0 && (year % 100 ≠ 0 || year % 400 = 0)

/-- The number of days of a month; there is none outside 1 to 12. -/
def daysInMonth (year : Int) (month : Nat) : Nat :=
  match month with
  | 2 => if isLeapYear year then 29 else 28
  | 4 | 6 | 9 | 11 => 30
  | 1 | 3 | 5 | 7 | 8 | 10 | 12 => 31
  | _ => 0

/-- The first and the last year of the calendar. -/
def firstYear : Int := -262143

@[inherit_doc firstYear]
def lastYear : Int := 262142

/-- A moment of the calendar without a time zone. -/
structure DateTime where
  year : Int
  month : Nat
  day : Nat
  hour : Nat
  minute : Nat
  second : Nat
  nanosecond : Nat
  year_mem : firstYear ≤ year ∧ year ≤ lastYear
  day_mem : 1 ≤ day ∧ day ≤ daysInMonth year month
  time_mem : hour < 24 ∧ minute < 60 ∧ second ≤ 60 ∧ nanosecond < 1000000000
deriving DecidableEq

/-- The moment with the given fields, if there is one. -/
def DateTime.ofFields? (year : Int) (month day hour minute second nanosecond : Nat) :
    Option DateTime :=
  if h : (firstYear ≤ year ∧ year ≤ lastYear) ∧ (1 ≤ day ∧ day ≤ daysInMonth year month) ∧
      (hour < 24 ∧ minute < 60 ∧ second ≤ 60 ∧ nanosecond < 1000000000) then
    some ⟨year, month, day, hour, minute, second, nanosecond, h.1, h.2.1, h.2.2⟩
  else none

/-! ### Order -/

/-- The position of a moment in the order of time; a leap second has a place of its own. -/
def DateTime.rank (t : DateTime) : Int :=
  (((((t.year * 13 + t.month) * 32 + t.day) * 24 + t.hour) * 60 + t.minute) * 61 + t.second) *
    1000000000 + t.nanosecond

instance : LE DateTime := ⟨fun a b => a.rank ≤ b.rank⟩
instance : LT DateTime := ⟨fun a b => a.rank < b.rank⟩

instance (a b : DateTime) : Decidable (a ≤ b) := inferInstanceAs (Decidable (a.rank ≤ b.rank))
instance (a b : DateTime) : Decidable (a < b) := inferInstanceAs (Decidable (a.rank < b.rank))

theorem DateTime.le_iff {a b : DateTime} : a ≤ b ↔ a.rank ≤ b.rank := Iff.rfl
theorem DateTime.lt_iff {a b : DateTime} : a < b ↔ a.rank < b.rank := Iff.rfl

private theorem month_le {year : Int} {month day : Nat}
    (h : 1 ≤ day ∧ day ≤ daysInMonth year month) : 1 ≤ month ∧ month ≤ 12 ∧ day ≤ 31 := by
  unfold daysInMonth at h
  split at h
  · split at h <;> omega
  all_goals omega

/-- Two moments of the same rank are the same. -/
theorem DateTime.rank_injective {a b : DateTime} (h : a.rank = b.rank) : a = b := by
  obtain ⟨y, mo, d, ho, mi, s, n, _, hd, ht⟩ := a
  obtain ⟨y', mo', d', ho', mi', s', n', _, hd', ht'⟩ := b
  have := month_le hd
  have := month_le hd'
  simp only [rank] at h
  simp only [DateTime.mk.injEq]
  omega

/-! ### Writing -/

private def yearText (year : Int) : List Char :=
  if 0 ≤ year ∧ year ≤ 9999 then Decimal.padded 4 year.natAbs
  else (if year < 0 then '-' else '+') :: Decimal.padded 4 year.natAbs

private def fractionText (nanosecond : Nat) : List Char :=
  if nanosecond = 0 then []
  else if nanosecond % 1000000 = 0 then '.' :: Decimal.padded 3 (nanosecond / 1000000)
  else if nanosecond % 1000 = 0 then '.' :: Decimal.padded 6 (nanosecond / 1000)
  else '.' :: Decimal.padded 9 nanosecond

/-- A moment as text: the fraction has the fewest of 0, 3, 6 or 9 digits that are exact, and
years outside 0 to 9999 have a sign. -/
def DateTime.text (t : DateTime) : String :=
  String.ofList <|
    yearText t.year ++ '-' :: Decimal.padded 2 t.month ++ '-' :: Decimal.padded 2 t.day ++
    'T' :: Decimal.padded 2 t.hour ++ ':' :: Decimal.padded 2 t.minute ++
    ':' :: Decimal.padded 2 t.second ++ fractionText t.nanosecond

/-! ### Reading -/

/-- A number of at least one digit and at most `width` digits, if a width is given. -/
private def numberField? (width : Option Nat) (cs : List Char) : Option (Nat × List Char) :=
  let all := cs.takeWhile Char.isDigit
  let ds := match width with
    | some w => all.take w
    | none => all
  if ds.isEmpty then none else some (Decimal.value ds, cs.drop ds.length)

private def twoDigits? (cs : List Char) : Option (Nat × List Char) :=
  numberField? (some 2) (skipWhiteSpace cs)

/-- A year: up to four digits, or a sign and any number of digits. -/
private def yearField? (cs : List Char) : Option (Int × List Char) :=
  match skipWhiteSpace cs with
  | '-' :: cs => (numberField? none cs).map fun (n, cs) => (-(n : Int), cs)
  | '+' :: cs => (numberField? none cs).map fun (n, cs) => ((n : Int), cs)
  | cs => (numberField? (some 4) cs).map fun (n, cs) => ((n : Int), cs)

private def mark? (c : Char) (cs : List Char) : Option (List Char) :=
  match skipWhiteSpace cs with
  | c' :: cs => if c' = c then some cs else none
  | [] => none

/-- Nothing, or a point and digits; those after the ninth are dropped. -/
private def nanosecondField? : List Char → Option (Nat × List Char)
  | '.' :: cs =>
    let ds := cs.takeWhile Char.isDigit
    if ds.isEmpty then none
    else
      let kept := ds.take 9
      some (Decimal.value kept * Decimal.power (9 - kept.length), cs.drop ds.length)
  | cs => some (0, cs)

/-- Reads a moment: year, month and day with `-` between them, `T`, and hour, minute and
second with `:` between them. White space may stand before every number and every mark, and
at the end. -/
def DateTime.read? (s : String) : Option DateTime := do
  let (year, cs) ← yearField? s.toList
  let cs ← mark? '-' cs
  let (month, cs) ← twoDigits? cs
  let cs ← mark? '-' cs
  let (day, cs) ← twoDigits? cs
  let cs ← mark? 'T' cs
  let (hour, cs) ← twoDigits? cs
  let cs ← mark? ':' cs
  let (minute, cs) ← twoDigits? cs
  let cs ← mark? ':' cs
  let (second, cs) ← twoDigits? cs
  let (nanosecond, cs) ← nanosecondField? cs
  if (skipWhiteSpace cs).isEmpty then
    DateTime.ofFields? year month day hour minute second nanosecond
  else none

end Interchange
