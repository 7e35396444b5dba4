import Interchange.Text.Decimal
import Interchange.Width
import Mathlib.Data.List.Induction
import Mathlib.Data.Nat.Digits.Defs
import Mathlib.Tactic.Common

/-!
# Numerals

What number does a text stand for? A run of digits stands for the sum of its digits, each times the
power of ten of its place (`Decimal.value_eq_number`): leading zeros add nothing, and the number
is below the power of ten that has one more place. A `Literal` is such a run behind at most one
sign, and the reader of integers accepts the literals and nothing else
(`Decimal.integer?_eq_some_iff`).

The digits are read from the left, ten times what has been read plus the next one. In arithmetic of
32 bits that fails where a number does not fit (`Decimal.checkedValue?`) nine digits can be read.
-/

namespace Interchange.Decimal

/-! ### Runs of digits -/

/-- One or more ASCII digits. -/
structure IsRun (ds : List Char) : Prop where
  ne_nil : ds ≠ []
  isDigit : ∀ c ∈ ds, c.isDigit = true

variable {cs ds : List Char} {c : Char} {n : Int}

theorem isRun_digits (m : Nat) : IsRun (digits m) :=
  ⟨digits_ne_nil m, List.all_eq_true.mp (all_isDigit_digits m)⟩

/-- Zeros in front of a run make a run. -/
private theorem IsRun.zeros_append (h : IsRun ds) (zeros : Nat) :
    IsRun (List.replicate zeros '0' ++ ds) where
  ne_nil := List.append_ne_nil_of_right_ne_nil _ h.ne_nil
  isDigit := by
    intro c hc
    rcases List.mem_append.mp hc with hc | hc
    · obtain rfl := List.eq_of_mem_replicate hc
      decide
    · exact h.isDigit c hc

theorem digitValue_lt_ten (h : c.isDigit = true) : digitValue c < 10 := by
  simp only [Char.isDigit, Bool.and_eq_true, decide_eq_true_eq] at h
  have hle : c.toNat ≤ 57 := h.2
  rw [digitValue]
  omega

/-- The number that a run of digits stands for: each digit counts by the power of ten of its
place. -/
def number (ds : List Char) : Nat := Nat.ofDigits 10 (ds.map digitValue).reverse

/-- **Places.** Reading from the left gives each digit the power of ten of its place. -/
theorem value_eq_number (ds : List Char) : value ds = number ds := by
  induction ds using List.reverseRecOn with
  | nil => rfl
  | append_singleton ds c ih =>
    rw [value_append_digit, ih, number, number, List.map_append, List.map_singleton,
      List.reverse_append, List.reverse_singleton, List.singleton_append, Nat.ofDigits_cons,
      Nat.mul_comm, Nat.add_comm]

/-- A number of so many digits is below that power of ten. -/
theorem number_lt_pow (h : ∀ c ∈ ds, c.isDigit = true) : number ds < 10 ^ ds.length := by
  have hdigits : ∀ d ∈ (ds.map digitValue).reverse, d < 10 := by
    intro d hd
    obtain ⟨c, hc, rfl⟩ := List.mem_map.mp (List.mem_reverse.mp hd)
    exact digitValue_lt_ten (h c hc)
  have hlt := Nat.ofDigits_lt_base_pow_length (by decide) hdigits
  rwa [List.length_reverse, List.length_map] at hlt

/-- Zeros in front of a run add nothing. -/
theorem number_zeros_append (zeros : Nat) (ds : List Char) :
    number (List.replicate zeros '0' ++ ds) = number ds := by
  rw [number, List.map_append, List.reverse_append, List.map_replicate, List.reverse_replicate]
  exact Nat.ofDigits_append_replicate_zero _

/-! ### Literals -/

/-- **Literals.** At most one sign, then a run of digits, stand for an integer. -/
inductive Literal : List Char → Int → Prop where
  | plain {ds : List Char} : IsRun ds → Literal ds (number ds)
  | plus {ds : List Char} : IsRun ds → Literal ('+' :: ds) (number ds)
  | minus {ds : List Char} : IsRun ds → Literal ('-' :: ds) (-(number ds : Int))

/-- A natural number is read off a run of digits, and off nothing else. -/
theorem natural?_eq_some_iff {m : Nat} : natural? ds = some m ↔ IsRun ds ∧ number ds = m := by
  rw [natural?, Option.ite_none_right_eq_some, Option.some.injEq, List.all_eq_true, value_eq_number]
  exact and_congr_left' ⟨fun h => ⟨h.1, h.2⟩, fun h => ⟨h.ne_nil, h.isDigit⟩⟩

/-- What is made of a run of digits. -/
private theorem natural?_map_eq_some_iff {f : Nat → Int} :
    (natural? ds).map f = some n ↔ IsRun ds ∧ f (number ds) = n := by
  rw [Option.map_eq_some_iff]
  constructor
  · rintro ⟨m, hm, rfl⟩
    obtain ⟨hrun, rfl⟩ := natural?_eq_some_iff.mp hm
    exact ⟨hrun, rfl⟩
  · rintro ⟨hrun, hn⟩
    exact ⟨number ds, natural?_eq_some_iff.mpr ⟨hrun, rfl⟩, hn⟩

private theorem integer?_plus (ds : List Char) :
    integer? ('+' :: ds) = (natural? ds).map Int.ofNat := rfl

private theorem integer?_minus (ds : List Char) :
    integer? ('-' :: ds) = (natural? ds).map fun m => -Int.ofNat m := by
  rw [integer?]
  cases natural? ds <;> rfl

/-- A text without a sign is read as it stands. -/
private theorem integer?_of_ne_sign (hplus : ∀ ds, cs ≠ '+' :: ds) (hminus : ∀ ds, cs ≠ '-' :: ds) :
    integer? cs = (natural? cs).map Int.ofNat := by
  unfold integer?
  split
  next ds => exact absurd rfl (hplus ds)
  next ds => exact absurd rfl (hminus ds)
  next => rfl

private theorem integer?_of_literal (h : Literal cs n) : integer? cs = some n := by
  cases h with
  | plain hrun =>
    -- no digit is a sign
    have hne : ∀ sign : Char, sign.isDigit = false → ∀ ds, cs ≠ sign :: ds := by
      rintro sign hsign ds rfl
      rw [hrun.isDigit sign List.mem_cons_self] at hsign
      cases hsign
    rw [integer?_of_ne_sign (hne '+' rfl) (hne '-' rfl)]
    exact natural?_map_eq_some_iff.mpr ⟨hrun, rfl⟩
  | plus hrun =>
    rw [integer?_plus]
    exact natural?_map_eq_some_iff.mpr ⟨hrun, rfl⟩
  | minus hrun =>
    rw [integer?_minus]
    exact natural?_map_eq_some_iff.mpr ⟨hrun, rfl⟩

private theorem literal_of_integer? (h : integer? cs = some n) : Literal cs n := by
  by_cases hplus : ∃ ds, cs = '+' :: ds
  · obtain ⟨ds, rfl⟩ := hplus
    rw [integer?_plus] at h
    obtain ⟨hrun, rfl⟩ := natural?_map_eq_some_iff.mp h
    exact .plus hrun
  by_cases hminus : ∃ ds, cs = '-' :: ds
  · obtain ⟨ds, rfl⟩ := hminus
    rw [integer?_minus] at h
    obtain ⟨hrun, rfl⟩ := natural?_map_eq_some_iff.mp h
    exact .minus hrun
  rw [integer?_of_ne_sign (not_exists.mp hplus) (not_exists.mp hminus)] at h
  obtain ⟨hrun, rfl⟩ := natural?_map_eq_some_iff.mp h
  exact .plain hrun

/-- **Reading.** An integer is read from its literals and from nothing else. -/
theorem integer?_eq_some_iff : integer? cs = some n ↔ Literal cs n :=
  ⟨literal_of_integer?, integer?_of_literal⟩

/-- The text of an integer, with any number of zeros in front of its digits. -/
def zeroFilled (zeros : Nat) (n : Int) : List Char :=
  (if n < 0 then ['-'] else []) ++ (List.replicate zeros '0' ++ digits n.natAbs)

/-- Every integer is read from its text, however many zeros it begins with. -/
theorem literal_zeroFilled (zeros : Nat) (n : Int) : Literal (zeroFilled zeros n) n := by
  have hrun := (isRun_digits n.natAbs).zeros_append zeros
  have hnumber : number (List.replicate zeros '0' ++ digits n.natAbs) = n.natAbs := by
    rw [number_zeros_append, ← value_eq_number, value_digits]
  rw [zeroFilled]
  by_cases hn : n < 0
  · have hliteral := Literal.minus hrun
    rw [hnumber, Int.ofNat_natAbs_of_nonpos (Int.le_of_lt hn), Int.neg_neg] at hliteral
    rwa [if_pos hn]
  · have hliteral := Literal.plain hrun
    rw [hnumber, Int.natAbs_of_nonneg (Int.not_lt.mp hn)] at hliteral
    rwa [if_neg hn]

/-! ### Reading within 32 bits -/

/-- The number, if it has 32 bits. -/
def fit? (n : Int) : Option Int := if minShort ≤ n ∧ n ≤ maxShort then some n else none

/-- The number that digits make in arithmetic that fails where a number does not fit. -/
def checkedValue? (cs : List Char) : Option Int :=
  cs.foldlM (fun n c => do
    let tens ← fit? (n * 10)
    fit? (tens + digitValue c)) 0

private theorem fit?_ofNat {m : Nat} (h : m < 10 ^ 9) : fit? m = some (m : Int) := by
  refine if_pos ?_
  simp only [minShort, maxShort]
  omega

/-- **No overflow.** Nine digits are read within 32 bits. -/
theorem checkedValue?_eq (h : ∀ c ∈ ds, c.isDigit = true) (hlength : ds.length ≤ 9) :
    checkedValue? ds = some (number ds : Int) := by
  induction ds using List.reverseRecOn with
  | nil => rfl
  | append_singleton ds c ih =>
    have hds : ∀ c ∈ ds, c.isDigit = true := fun d hd => h d (List.mem_append_left _ hd)
    have hnumber : number (ds ++ [c]) = number ds * 10 + digitValue c := by
      rw [← value_eq_number, value_append_digit, value_eq_number]
    have hlt : number ds * 10 + digitValue c < 10 ^ 9 := by
      rw [← hnumber]
      exact Nat.lt_of_lt_of_le (number_lt_pow h) (Nat.pow_le_pow_right (by decide) hlength)
    have htens : fit? (number ds * 10 : Nat) = some ((number ds * 10 : Nat) : Int) :=
      fit?_ofNat (Nat.lt_of_le_of_lt (Nat.le_add_right _ _) hlt)
    have hall := fit?_ofNat hlt
    rw [List.length_append, List.length_singleton] at hlength
    rw [checkedValue?, List.foldlM_append, ← checkedValue?, ih hds (by omega), hnumber]
    push_cast at htens hall ⊢
    simp [htens, hall]

end Interchange.Decimal
