import Interchange.Text.Decimal
import Interchange.Width

/-!
# JSON numbers

A number literal has a sign, a whole part, and possibly a fraction and an exponent. A
literal without the last two that fits 64 bits is an integer; `-0` and every other literal
is a double. The digits of a double are collected into one significand of 64 bits, and
digits that no longer fit are dropped; the significand is then scaled by a power of ten.
A literal whose scaled value overflows has no value.
-/

namespace Interchange.Json

/-- A number literal, split into its parts. -/
structure NumberLiteral where
  negative : Bool
  whole : List Char
  /-- The digits after the point, if there is a point -/
  fraction : Option (List Char)
  /-- Whether the exponent is negative, and its digits, if there is one -/
  exponent : Option (Bool × List Char)

/-- The value of a number literal. -/
inductive Number where
  | integer (n : Int)
  | double (x : Float)

/-! ### Splitting a literal -/

/-- The digits that a text starts with, and what follows them. -/
def spanDigits (cs : List Char) : List Char × List Char :=
  (cs.takeWhile Char.isDigit, cs.dropWhile Char.isDigit)

/-- The whole part: `0`, or digits that do not start with `0`. -/
def NumberLiteral.whole? (cs : List Char) : Option (List Char × List Char) :=
  match spanDigits cs with
  | ([], _) => none
  | ('0' :: _ :: _, _) => none
  | (ds, rest) => some (ds, rest)

/-- The fraction: nothing, or a point and at least one digit. -/
def NumberLiteral.fraction? : List Char → Option (Option (List Char) × List Char)
  | '.' :: cs =>
    match spanDigits cs with
    | ([], _) => none
    | (ds, rest) => some (some ds, rest)
  | cs => some (none, cs)

private def exponentDigits? (negative : Bool) (cs : List Char) :
    Option (Option (Bool × List Char) × List Char) :=
  match spanDigits cs with
  | ([], _) => none
  | (ds, rest) => some (some (negative, ds), rest)

/-- The exponent: nothing, or `e` or `E`, an optional sign and at least one digit. -/
def NumberLiteral.exponent? (cs : List Char) : Option (Option (Bool × List Char) × List Char) :=
  match cs with
  | c :: rest =>
    if c = 'e' ∨ c = 'E' then
      match rest with
      | '+' :: ds => exponentDigits? false ds
      | '-' :: ds => exponentDigits? true ds
      | ds => exponentDigits? false ds
    else some (none, cs)
  | [] => some (none, [])

/-- The parts behind the sign. -/
def NumberLiteral.unsigned? (negative : Bool) (cs : List Char) :
    Option (NumberLiteral × List Char) := do
  let (whole, cs) ← NumberLiteral.whole? cs
  let (fraction, cs) ← NumberLiteral.fraction? cs
  let (exponent, cs) ← NumberLiteral.exponent? cs
  return (⟨negative, whole, fraction, exponent⟩, cs)

/-- The literal that `cs` starts with, and what follows it. -/
def NumberLiteral.read? : List Char → Option (NumberLiteral × List Char)
  | '-' :: cs => NumberLiteral.unsigned? true cs
  | cs => NumberLiteral.unsigned? false cs

/-! A literal takes at least one character, and its optional parts take none back. -/

private theorem length_spanDigits (cs : List Char) :
    (spanDigits cs).1.length + (spanDigits cs).2.length = cs.length := by
  rw [spanDigits, ← List.length_append, List.takeWhile_append_dropWhile]

private theorem length_whole? {cs ds rest : List Char}
    (h : NumberLiteral.whole? cs = some (ds, rest)) : rest.length < cs.length := by
  have hl := length_spanDigits cs
  unfold NumberLiteral.whole? at h
  split at h
  · simp at h
  · simp at h
  · next ds' rest' hne _ heq =>
    simp only [Option.some.injEq, Prod.mk.injEq] at h
    obtain ⟨rfl, rfl⟩ := h
    rw [heq] at hl
    cases ds' with
    | nil => exact (hne rfl).elim
    | cons d ds' => simp only [List.length_cons] at hl; omega

private theorem length_fraction? {cs rest : List Char} {ds : Option (List Char)}
    (h : NumberLiteral.fraction? cs = some (ds, rest)) : rest.length ≤ cs.length := by
  unfold NumberLiteral.fraction? at h
  split at h
  · next cs =>
    have hl := length_spanDigits cs
    split at h
    · simp at h
    · next heq =>
      simp only [Option.some.injEq, Prod.mk.injEq] at h
      rw [heq] at hl
      obtain ⟨-, rfl⟩ := h
      simp only [List.length_cons] at *
      omega
  · simp only [Option.some.injEq, Prod.mk.injEq] at h
    exact Nat.le_of_eq (congrArg List.length h.2.symm)

private theorem length_exponentDigits? {negative : Bool} {cs rest : List Char}
    {e : Option (Bool × List Char)} (h : exponentDigits? negative cs = some (e, rest)) :
    rest.length ≤ cs.length := by
  have hl := length_spanDigits cs
  unfold exponentDigits? at h
  split at h
  · simp at h
  · next heq =>
    simp only [Option.some.injEq, Prod.mk.injEq] at h
    rw [heq] at hl
    obtain ⟨-, rfl⟩ := h
    simp only at hl
    omega

private theorem length_exponent? {cs rest : List Char} {e : Option (Bool × List Char)}
    (h : NumberLiteral.exponent? cs = some (e, rest)) : rest.length ≤ cs.length := by
  unfold NumberLiteral.exponent? at h
  split at h
  · split at h
    · split at h <;>
      · have := length_exponentDigits? h
        simp only [List.length_cons] at *
        omega
    · simp only [Option.some.injEq, Prod.mk.injEq] at h
      exact Nat.le_of_eq (congrArg List.length h.2.symm)
  · simp only [Option.some.injEq, Prod.mk.injEq] at h
    exact Nat.le_of_eq (congrArg List.length h.2.symm)

private theorem length_unsigned? {negative : Bool} {cs rest : List Char} {l : NumberLiteral}
    (h : NumberLiteral.unsigned? negative cs = some (l, rest)) : rest.length < cs.length := by
  unfold NumberLiteral.unsigned? at h
  simp only [Option.bind_eq_bind, Option.bind_eq_some_iff, Prod.exists, Option.pure_def,
    Option.some.injEq, Prod.mk.injEq] at h
  obtain ⟨_, _, h₁, _, _, h₂, _, _, h₃, -, rfl⟩ := h
  have := length_whole? h₁
  have := length_fraction? h₂
  have := length_exponent? h₃
  omega

/-- A literal takes a character at least, so reading numbers comes to an end. -/
theorem NumberLiteral.length_read? {cs rest : List Char} {l : NumberLiteral}
    (h : NumberLiteral.read? cs = some (l, rest)) : rest.length < cs.length := by
  unfold NumberLiteral.read? at h
  split at h
  · have := length_unsigned? h
    simp only [List.length_cons]
    omega
  · exact length_unsigned? h

/-! ### The value of a literal -/

/-- The largest significand kept. -/
def significandLimit : Nat := countLimit - 1

/-- Appends digits to a significand while it stays within the limit; what is left over is
returned as well. -/
def extendSignificand (s : Nat) : List Char → Nat × List Char
  | [] => (s, [])
  | c :: cs =>
    let s' := s * 10 + Decimal.digitValue c
    if s' ≤ significandLimit then extendSignificand s' cs else (s, c :: cs)

private def powerOfTen (k : Nat) : Float := Float.ofScientific 1 false k

/-- Divides by `10^k`, in steps of `10^308`; a value that is already zero stays zero. -/
def shrink (k : Nat) (x : Float) : Float :=
  if k ≤ 308 then x / powerOfTen k
  else if x == 0 then x
  else shrink (k - 308) (x / powerOfTen 308)
termination_by k
decreasing_by omega

/-- The significand times a power of ten, unless it overflows. -/
def scaleSignificand (s : Nat) : Int → Option Float
  | .ofNat k =>
    if k ≤ 308 then
      let x := Float.ofScientific s false 0 * powerOfTen k
      if x.isInf then none else some x
    else if s = 0 then some 0
    else none
  | .negSucc k => some (shrink (k + 1) (Float.ofScientific s false 0))

private def exponentValue : Option (Bool × List Char) → Int
  | none => 0
  | some (negative, ds) => if negative then -(Decimal.value ds : Int) else Decimal.value ds

/-- The value of a literal; `none` if it overflows a double. -/
def NumberLiteral.number? (l : NumberLiteral) : Option Number :=
  let (s, dropped) := extendSignificand 0 l.whole
  match l.fraction, l.exponent, dropped with
  | none, none, [] =>
    if l.negative = false then some (.integer s)
    else if s = 0 then some (.double (-0.0))
    else if s ≤ 9223372036854775808 then some (.integer (-s))
    else some (.double (-Float.ofScientific s false 0))
  | fraction, exponent, dropped =>
    let ds := fraction.getD []
    let (s, left) := extendSignificand s ds
    let places : Nat := ds.length - left.length
    (scaleSignificand s (dropped.length - places + exponentValue exponent)).map fun x =>
      .double (if l.negative then -x else x)

/-- The double that a number is or rounds to. -/
def Number.toFloat : Number → Float
  | .integer n => Float.ofInt n
  | .double x => x

end Interchange.Json
