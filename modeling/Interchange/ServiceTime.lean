import Interchange.Text.Decimal
import Interchange.Width

/-!
# Times of the service day

Timetables count time from midnight of the service day, and trips that run past midnight
keep counting: `25:10` is ten past one the next morning. A `ServiceTime` is a number of
seconds within 32 bits, and its arithmetic stops at the ends of that range.

`ServiceTime.parse` reads `HH:MM` and `HH:MM:SS` with hours up to 47; `ServiceTime.text`
writes every time and leaves out seconds that are zero.
-/

namespace Interchange

/-! ### Times -/

/-- Seconds since midnight of the service day. -/
structure ServiceTime where
  seconds : Int
  mem : minShort ≤ seconds ∧ seconds ≤ maxShort
deriving DecidableEq

namespace ServiceTime

/-- The time nearest to the given number of seconds. -/
def ofSeconds (n : Int) : ServiceTime := ⟨clampShort n, clampShort_mem n⟩

/-- The time of the given hours, minutes and seconds, any of which may be negative. What exceeds
32 bits would stop at the ends of the range; nothing that is read comes near them, since hours end
at 47 and minutes and seconds at 59, so that the sum is the exact one. -/
def hms (hours minutes seconds : Int) : ServiceTime :=
  ofSeconds (hours * 3600 + minutes * 60 + seconds)

@[ext] theorem ext {a b : ServiceTime} (h : a.seconds = b.seconds) : a = b := by
  cases a; cases b; cases h; rfl

instance : LE ServiceTime := ⟨fun a b => a.seconds ≤ b.seconds⟩
instance : LT ServiceTime := ⟨fun a b => a.seconds < b.seconds⟩

instance (a b : ServiceTime) : Decidable (a ≤ b) :=
  inferInstanceAs (Decidable (a.seconds ≤ b.seconds))
instance (a b : ServiceTime) : Decidable (a < b) :=
  inferInstanceAs (Decidable (a.seconds < b.seconds))

theorem le_iff {a b : ServiceTime} : a ≤ b ↔ a.seconds ≤ b.seconds := Iff.rfl
theorem lt_iff {a b : ServiceTime} : a < b ↔ a.seconds < b.seconds := Iff.rfl

/-- The later of two times. -/
def latest (a b : ServiceTime) : ServiceTime := if a ≤ b then b else a

/-- The time `n` seconds later. -/
def add (t : ServiceTime) (n : Int) : ServiceTime := ofSeconds (t.seconds + n)

/-- The time `n` seconds earlier. -/
def sub (t : ServiceTime) (n : Int) : ServiceTime := ofSeconds (t.seconds - n)

/-- The seconds from `other` to `t`. -/
def since (t other : ServiceTime) : Int := clampShort (t.seconds - other.seconds)

@[simp] theorem seconds_ofSeconds (n : Int) : (ofSeconds n).seconds = clampShort n := rfl

end ServiceTime

/-! ### Reading -/

/-- Why a text is no time. -/
inductive ServiceTimeError where
  | length
  | separators
  | hourDigits
  | hourRange
  | minuteDigits
  | minuteRange
  | secondDigits
  | secondRange
deriving DecidableEq, Repr

/-- The wording of a refusal. -/
def ServiceTimeError.message (e : ServiceTimeError) : String :=
  "invalid time: " ++ match e with
    | .length => "expected HH:MM or HH:MM:SS format"
    | .separators => "expected ':' separators"
    | .hourDigits => "invalid hour digits"
    | .hourRange => "hour out of range"
    | .minuteDigits => "invalid minute digits"
    | .minuteRange => "minute must be 0-59"
    | .secondDigits => "invalid second digits"
    | .secondRange => "second must be 0-59"

namespace ServiceTime

/-- The latest hour that is read. -/
def lastHour : Nat := 47

/-- A text spread over the places that it takes: a character stands once in every byte of
its UTF-8 form, so one outside ASCII takes several places and is no digit in any of them. -/
def places (cs : List Char) : List Char := cs.flatMap fun c => List.replicate c.utf8Size c

/-- Two ASCII digits. -/
def pair? (a b : Char) : Option Nat := Decimal.natural? [a, b]

/-- Two digits with an upper limit. -/
def readPair (a b : Char) (limit : Nat) (digits range : ServiceTimeError) :
    Except ServiceTimeError Nat :=
  match pair? a b with
  | none => .error digits
  | some n => if limit < n then .error range else .ok n

/-- Reads a time from the places of its text. -/
def parsePlaces : List Char → Except ServiceTimeError ServiceTime
  | [h, h', s, m, m'] =>
    if s ≠ ':' then .error .separators
    else do
      let hours ← readPair h h' lastHour .hourDigits .hourRange
      let minutes ← readPair m m' 59 .minuteDigits .minuteRange
      return hms hours minutes 0
  | [h, h', s, m, m', s', c, c'] =>
    if s ≠ ':' ∨ s' ≠ ':' then .error .separators
    else do
      let hours ← readPair h h' lastHour .hourDigits .hourRange
      let minutes ← readPair m m' 59 .minuteDigits .minuteRange
      let seconds ← readPair c c' 59 .secondDigits .secondRange
      return hms hours minutes seconds
  | _ => .error .length

/-- Reads `HH:MM` or `HH:MM:SS`. -/
def parse (s : String) : Except ServiceTimeError ServiceTime := parsePlaces (places s.toList)

/-! ### Writing -/

/-- A time as text: `-` in front of a negative one, at least two digits for the hours, and
seconds only if they are not zero. -/
def text (t : ServiceTime) : String :=
  let n := t.seconds.natAbs
  let sign := if t.seconds < 0 then ['-'] else []
  let clock := Decimal.padded 2 (n / 3600) ++ ':' :: Decimal.padded 2 (n % 3600 / 60)
  let rest := if n % 60 = 0 then [] else ':' :: Decimal.padded 2 (n % 60)
  String.ofList (sign ++ clock ++ rest)

end ServiceTime

end Interchange
