/-!
# Decimal numerals

Natural numbers written with the ten ASCII digits. `digits` writes a number without
leading zeros, `value` reads any run of digits, and `value_digits` says that reading
undoes writing. Everything else that prints or reads a count goes through these two.
-/

namespace Interchange.Decimal

/-! ### Writing -/

/-- The ASCII digit for a number below ten. -/
def digit (n : Nat) : Char := Char.ofNat (48 + n)

/-- The digits of `n`, most significant first, without leading zeros; `0` is one digit. -/
def digits (n : Nat) : List Char :=
  if n < 10 then [digit n] else digits (n / 10) ++ [digit (n % 10)]
termination_by n
decreasing_by omega

/-- The digits of `n` as a text. -/
def text (n : Nat) : String := String.ofList (digits n)

/-- The digits of `n`, filled up with zeros in front to at least `width`. -/
def padded (width n : Nat) : List Char :=
  let ds := digits n
  List.replicate (width - ds.length) '0' ++ ds

/-- An integer as digits with `-` in front of a negative value. -/
def signed (n : Int) : List Char :=
  if n < 0 then '-' :: digits n.natAbs else digits n.natAbs

/-- The number that is written as a one and `places` zeros. -/
def power (places : Nat) : Nat := Nat.pow 10 places

/-! ### Reading -/

/-- The number an ASCII digit stands for. -/
def digitValue (c : Char) : Nat := c.toNat - 48

/-- The number a run of digits stands for; leading zeros add nothing. -/
def value (cs : List Char) : Nat := cs.foldl (fun n c => n * 10 + digitValue c) 0

/-- One or more ASCII digits and nothing else. -/
def natural? (cs : List Char) : Option Nat :=
  if cs ≠ [] ∧ cs.all Char.isDigit then some (value cs) else none

/-- One optional sign, then one or more ASCII digits, and nothing else. -/
def integer? : List Char → Option Int
  | '+' :: cs => (natural? cs).map Int.ofNat
  | '-' :: cs => (natural? cs).map fun n => -(n : Int)
  | cs => (natural? cs).map Int.ofNat

/-! ### Reading undoes writing -/

private theorem digit_cases {n : Nat} (h : n < 10) :
    (digit n).isDigit = true ∧ digitValue (digit n) = n := by
  have : n = 0 ∨ n = 1 ∨ n = 2 ∨ n = 3 ∨ n = 4 ∨ n = 5 ∨ n = 6 ∨ n = 7 ∨ n = 8 ∨ n = 9 := by
    omega
  rcases this with h | h | h | h | h | h | h | h | h | h <;> subst h <;> decide

theorem isDigit_digit {n : Nat} (h : n < 10) : (digit n).isDigit = true := (digit_cases h).1

theorem digitValue_digit {n : Nat} (h : n < 10) : digitValue (digit n) = n := (digit_cases h).2

theorem value_append_digit (cs : List Char) (c : Char) :
    value (cs ++ [c]) = value cs * 10 + digitValue c := by
  simp [value]

/-- Reading the digits of a number gives the number back. -/
@[simp] theorem value_digits (n : Nat) : value (digits n) = n := by
  induction n using digits.induct with
  | case1 n h =>
    rw [digits, if_pos h]
    simp [value, digitValue_digit h]
  | case2 n h ih =>
    rw [digits, if_neg h, value_append_digit, ih, digitValue_digit (by omega)]
    omega

theorem all_isDigit_digits (n : Nat) : (digits n).all Char.isDigit = true := by
  induction n using digits.induct with
  | case1 n h => rw [digits, if_pos h]; simp [isDigit_digit h]
  | case2 n h ih =>
    rw [digits, if_neg h, List.all_append, ih]
    simp [isDigit_digit (Nat.mod_lt n (by omega : 10 > 0))]

theorem digits_ne_nil (n : Nat) : digits n ≠ [] := by
  rw [digits]; split <;> simp

end Interchange.Decimal
