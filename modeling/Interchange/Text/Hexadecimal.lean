/-!
# Hexadecimal digits

Digits are written in lower case and read in either.
-/

namespace Interchange.Hexadecimal

/-- The digit for a number below sixteen. -/
def digit (n : Nat) : Char := if n < 10 then Char.ofNat (48 + n) else Char.ofNat (87 + n)

/-- The number that a digit stands for. -/
def digitValue? (c : Char) : Option Nat :=
  if '0' ≤ c ∧ c ≤ '9' then some (c.toNat - 48)
  else if 'a' ≤ c ∧ c ≤ 'f' then some (c.toNat - 87)
  else if 'A' ≤ c ∧ c ≤ 'F' then some (c.toNat - 55)
  else none

/-- Reading a written digit gives the number back. -/
theorem digitValue?_digit : ∀ n < 16, digitValue? (digit n) = some n := by decide

/-- The number that a run of digits stands for; other characters are passed over. -/
def value (cs : List Char) : Nat := (cs.filterMap digitValue?).foldl (fun n d => n * 16 + d) 0

/-- The digits of a number, without leading zeros. -/
def digits (n : Nat) : List Char :=
  if n < 16 then [digit n] else digits (n / 16) ++ [digit (n % 16)]

end Interchange.Hexadecimal
