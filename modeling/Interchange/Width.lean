/-!
# Numbers of fixed width

Times, costs and versions are signed numbers of 32 bits, sequence numbers and durations are
counts of 32 bits, and all other counts have 64. The bounds of these ranges are given here as
plain numbers.
-/

namespace Interchange

/-! ### Counts -/

/-- Counts of 32 bits are below this. -/
def shortCountLimit : Nat := 4294967296

/-- Counts of 64 bits are below this. -/
def countLimit : Nat := 18446744073709551616

/-! ### Signed numbers of 32 bits -/

/-- The least number of 32 bits. -/
def minShort : Int := -2147483648

/-- The greatest number of 32 bits. -/
def maxShort : Int := 2147483647

/-- The number of 32 bits nearest to `n`. -/
def clampShort (n : Int) : Int := max minShort (min maxShort n)

/-- Nothing is left beyond the ends of the range. -/
theorem clampShort_mem (n : Int) : minShort ≤ clampShort n ∧ clampShort n ≤ maxShort := by
  simp only [clampShort, minShort, maxShort]
  omega

/-- Clamping keeps the order. -/
theorem clampShort_mono {m n : Int} (h : m ≤ n) : clampShort m ≤ clampShort n := by
  simp only [clampShort, minShort, maxShort]
  omega

/-- A limit within the range is passed before clamping sets in. -/
theorem clampShort_le_iff {n limit : Int} (h : minShort ≤ limit ∧ limit < maxShort) :
    clampShort n ≤ limit ↔ n ≤ limit := by
  simp only [clampShort, minShort, maxShort] at *
  omega

theorem clampShort_of_mem {n : Int} (h : minShort ≤ n ∧ n ≤ maxShort) : clampShort n = n := by
  simp only [clampShort, minShort, maxShort] at *
  omega

end Interchange
