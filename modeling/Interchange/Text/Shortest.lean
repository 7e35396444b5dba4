import Interchange.Text.FixedPoint

/-!
# The shortest decimal of a double

Many decimals round to one double; the shortest of them, and of several with as few digits the
one nearest to the double, is the decimal by which the double is known. Those that round to
`m · 2^q` fill an interval around it, which is narrower below a power of two, and its ends
belong to it if `m` is even.

`Shortest.find` tries the powers of ten from the largest down and takes the first whose
multiples meet the interval. If any multiple does, one of the two next to the double does too,
so only these are looked at.
-/

namespace Interchange.Shortest

/-- The decimal `significand · 10^exponent`. -/
structure Scientific where
  significand : Nat
  exponent : Int
deriving DecidableEq, Repr

/-- The numbers that round to one double; its bounds and the double itself count units of
`2^exponent`. -/
structure Span where
  low : Nat
  value : Nat
  high : Nat
  exponent : Int
  /-- Whether the bounds round to the double as well -/
  closed : Bool

/-- The span of `m · 2^q`, in quarters of `2^q`. -/
def Span.around (m : Nat) (q : Int) : Span where
  low := if m = hiddenBit ∧ -1074 < q then 4 * m - 1 else 4 * m - 2
  value := 4 * m
  high := 4 * m + 2
  exponent := q - 2
  closed := m % 2 = 0

/-- A decimal, brought to a common denominator with units of `2^q`. -/
def Scientific.scaled (d : Scientific) (q : Int) : Nat :=
  (d.significand * Decimal.power d.exponent.toNat) <<< (-q).toNat

/-- Units of `2^q`, brought to a common denominator with multiples of `10^k`. -/
def unitsScaled (n : Nat) (q k : Int) : Nat := (n * Decimal.power (-k).toNat) <<< q.toNat

/-- Whether a decimal rounds to the double of the span. -/
def Span.contains (s : Span) (d : Scientific) : Bool :=
  let x := d.scaled s.exponent
  let low := unitsScaled s.low s.exponent d.exponent
  let high := unitsScaled s.high s.exponent d.exponent
  if s.closed then low ≤ x && x ≤ high else low < x && x < high

/-- The multiple of `10^k` in the span that is nearest to the double; a tie goes to the even
multiple. -/
def Span.onGrid (s : Span) (k : Int) : Option Scientific :=
  let num := unitsScaled s.value s.exponent k
  let den := Scientific.scaled ⟨1, k⟩ s.exponent
  let nearest := roundDiv num den
  let other := if nearest = num / den then nearest + 1 else num / den
  [⟨nearest, k⟩, ⟨other, k⟩].find? s.contains

/-- The largest power of ten below the largest double. -/
def topExponent : Int := 308

/-- The powers of ten from the largest double to the smallest are this many. -/
def exponentCount : Nat := 633

/-- The shortest decimal that rounds to `m · 2^q`, for `m` not zero. -/
def find (m : Nat) (q : Int) : Scientific :=
  ((List.range exponentCount).findSome? fun (i : Nat) =>
    (Span.around m q).onGrid (topExponent - i)).getD ⟨0, 0⟩

end Interchange.Shortest
