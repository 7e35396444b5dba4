import Interchange.Text.Decimal

/-!
# Doubles with a fixed number of decimals

A finite double is exactly `± m · 2^q` for natural `m` and integer `q`, so its value can be
rounded to any number of decimals in exact arithmetic. `roundDiv` rounds a quotient to the
nearest natural number and a tie to the even one; `fixedPoint` writes the sign, the whole
part and the decimals. The sign bit is always shown, also on zero and on what rounds to zero.
-/

namespace Interchange

/-! ### Rounding a quotient -/

/-- The natural number nearest to `num / den`; a tie goes to the even neighbour. -/
def roundDiv (num den : Nat) : Nat :=
  let q := num / den
  let r := num % den
  if 2 * r < den then q
  else if den < 2 * r then q + 1
  else if q % 2 = 0 then q else q + 1

/-! ### The exact value of a double -/

/-- The exact value of a double: a sign and `m · 2^q`, an infinity, or no number. -/
inductive Exact where
  | finite (negative : Bool) (mantissa : Nat) (exponent : Int)
  | infinite (negative : Bool)
  | notANumber
deriving DecidableEq, Repr

/-- The leading bit of a mantissa, which a double does not store. -/
def hiddenBit : Nat := 4503599627370496

/-- Reads sign, exponent and fraction off the 64 bits of a double. -/
def Exact.ofBits (bits : UInt64) : Exact :=
  let n := bits.toNat
  let negative := n >>> 63 = 1
  let exponent : Nat := (n >>> 52) % 2048
  let fraction := n % hiddenBit
  if exponent = 2047 then
    if fraction = 0 then .infinite negative else .notANumber
  else if exponent = 0 then .finite negative fraction (-1074)
  else .finite negative (hiddenBit + fraction) ((exponent : Int) - 1075)

/-- The value of `m · 2^q` in units of the last of `places` decimals, rounded. -/
def scaledRound (places mantissa : Nat) (exponent : Int) : Nat :=
  if 0 ≤ exponent then (mantissa <<< exponent.toNat) * Decimal.power places
  else roundDiv (mantissa * Decimal.power places) (1 <<< (-exponent).toNat)

/-! ### Writing -/

/-- Writes `units` counted in the last of `places` decimals. -/
def decimalsOf (places units : Nat) : List Char :=
  let whole := Decimal.digits (units / Decimal.power places)
  if places = 0 then whole
  else whole ++ '.' :: Decimal.padded places (units % Decimal.power places)

private def signMark (negative : Bool) : List Char := if negative then ['-'] else []

/-- A double with exactly `places` decimals, never with an exponent. -/
def fixedPoint (places : Nat) (x : Float) : String :=
  match Exact.ofBits x.toBits with
  | .finite negative mantissa exponent =>
    String.ofList (signMark negative ++ decimalsOf places (scaledRound places mantissa exponent))
  | .infinite negative => String.ofList (signMark negative ++ "inf".toList)
  | .notANumber => "NaN"

end Interchange
