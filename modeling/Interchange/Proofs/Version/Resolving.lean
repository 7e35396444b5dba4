import Interchange.Proofs.Text.Numeral
import Interchange.Proofs.Version.Selection

/-!
# What version tags stand for

A tag is read in one of three ways (`Resolves`): it is the tag of an unknown version, or an integer
literal of 32 bits, or anything else, of which the first eight digits count, wherever they stand. No
tag is read in two of them, and every tag is read in one (`VersionTag.resolve_eq_iff`).

Only literals stand for negative versions, so an unknown version is the latest of several only if
all others are negative literals (`exists_negative_of_latestBy_any`).
-/

namespace Interchange

open Decimal

/-- The digits that are kept of a text that is no version by itself. -/
def leadingDigits (t : String) : List Char := (t.toList.filter Char.isDigit).take 8

/-- A number of 32 bits. -/
def IsShort (n : Int) : Prop := minShort ≤ n ∧ n ≤ maxShort

/-- **Resolving.** The version that a tag stands for. -/
inductive Resolves : String → Int → Prop where
  | unknown : Resolves "any" (-1)
  | literal {t : String} {n : Int} : t ≠ "any" → Literal t.toList n → IsShort n → Resolves t n
  | salvaged {t : String} : t ≠ "any" → (∀ n, Literal t.toList n → ¬ IsShort n) →
      Resolves t (number (leadingDigits t))

/-- Only a literal stands for a negative version. -/
private theorem Resolves.exists_literal {t : String} {n : Int} (h : Resolves t n) (hany : t ≠ "any")
    (hneg : n < 0) : ∃ n, Literal t.toList n ∧ minShort ≤ n ∧ n < 0 := by
  cases h with
  | unknown => exact absurd rfl hany
  | literal _ hliteral hshort => exact ⟨n, hliteral, hshort.1, hneg⟩
  | salvaged => exact absurd hneg (Int.not_lt.mpr (Int.natCast_nonneg _))

namespace VersionTag

/-! ### The three ways to read a tag -/

variable {t : String} {n : Int}

/-- A literal is read if its number is within 32 bits. -/
theorem literal?_eq_some_iff {cs : List Char} :
    literal? cs = some n ↔ Literal cs n ∧ IsShort n := by
  rw [literal?, ← integer?_eq_some_iff]
  cases integer? cs with
  | none => simp
  | some m =>
    simp only [Option.ite_none_right_eq_some, Option.some.injEq]
    constructor
    · rintro ⟨hshort, rfl⟩
      exact ⟨rfl, hshort⟩
    · rintro ⟨rfl, hshort⟩
      exact ⟨hshort, rfl⟩

private theorem mk_eq_any_iff : VersionTag.mk t = any ↔ t = "any" := by
  rw [any, mk.injEq]

/-- A tag that is a number means the number. -/
private theorem resolve_of_literal (hany : t ≠ "any") (hliteral : Literal t.toList n)
    (hshort : IsShort n) : (VersionTag.mk t).resolve = n := by
  rw [resolve, if_neg (mt mk_eq_any_iff.mp hany), literal?_eq_some_iff.mpr ⟨hliteral, hshort⟩]

/-- Any other tag means the number of its leading digits. -/
private theorem resolve_of_not_literal (hany : t ≠ "any")
    (hliteral : ∀ n, Literal t.toList n → ¬ IsShort n) :
    (VersionTag.mk t).resolve = number (leadingDigits t) := by
  have hnone : literal? t.toList = none := by
    rw [Option.eq_none_iff_forall_ne_some]
    intro n hn
    obtain ⟨hn, hshort⟩ := literal?_eq_some_iff.mp hn
    exact hliteral n hn hshort
  rw [resolve, if_neg (mt mk_eq_any_iff.mp hany), hnone, leadingDigits, ← value_eq_number]
  rfl

/-- **Resolving.** The ways to read a tag exclude each other, and one of them always applies. -/
theorem resolve_eq_iff : (VersionTag.mk t).resolve = n ↔ Resolves t n := by
  constructor
  · rintro rfl
    by_cases hany : t = "any"
    · subst hany
      exact .unknown
    by_cases hliteral : ∃ n, Literal t.toList n ∧ IsShort n
    · obtain ⟨n, hliteral, hshort⟩ := hliteral
      rw [resolve_of_literal hany hliteral hshort]
      exact .literal hany hliteral hshort
    · have hno : ∀ n, Literal t.toList n → ¬ IsShort n :=
        fun n hn hshort => hliteral ⟨n, hn, hshort⟩
      rw [resolve_of_not_literal hany hno]
      exact .salvaged hany hno
  · intro h
    cases h with
    | unknown => rfl
    | literal hany hliteral hshort => exact resolve_of_literal hany hliteral hshort
    | salvaged hany hliteral => exact resolve_of_not_literal hany hliteral

/-- The tag of an unknown version is no literal: it begins with a letter. -/
private theorem ne_any_of_literal (h : Literal t.toList n) : t ≠ "any" := by
  rintro rfl
  have hnone : integer? "any".toList = none := by decide
  rw [integer?_eq_some_iff.mpr h] at hnone
  cases hnone

/-- Zeros in front of the digits do not change a version. -/
theorem resolve_zeroFilled (zeros : Nat) (hshort : IsShort n) :
    (VersionTag.mk (String.ofList (zeroFilled zeros n))).resolve = n := by
  have hliteral : Literal (String.ofList (zeroFilled zeros n)).toList n := by
    rw [String.toList_ofList]
    exact literal_zeroFilled zeros n
  exact resolve_of_literal (ne_any_of_literal hliteral) hliteral hshort

/-! ### Digits that are kept -/

private theorem isDigit_of_mem_leadingDigits {c : Char} (h : c ∈ leadingDigits t) :
    c.isDigit = true :=
  (List.mem_filter.mp (List.mem_of_mem_take h)).2

private theorem length_leadingDigits_le (t : String) : (leadingDigits t).length ≤ 8 := by
  rw [leadingDigits, List.length_take]
  exact Nat.min_le_left _ _

private theorem number_leadingDigits_le (t : String) : number (leadingDigits t) ≤ 99999999 := by
  have hlt : number (leadingDigits t) < 10 ^ 8 :=
    Nat.lt_of_lt_of_le (number_lt_pow fun c hc => isDigit_of_mem_leadingDigits hc)
      (Nat.pow_le_pow_right (by decide) (length_leadingDigits_le t))
  omega

/-- The digits that are kept are read without overflow. -/
private theorem checkedValue?_leadingDigits (t : String) :
    checkedValue? (leadingDigits t) = some (number (leadingDigits t) : Int) :=
  checkedValue?_eq (fun _ hc => isDigit_of_mem_leadingDigits hc)
    (Nat.le_trans (length_leadingDigits_le t) (by decide))

end VersionTag

/-! ### Lists of entities -/

open VersionTag

/-- An unknown version is the latest only among negative literals. -/
theorem exists_negative_of_latestBy_any {α : Type} {tag : α → VersionTag} {as : List α} {a b : α}
    (hlatest : latestBy (fun e => (tag e).resolve) as = some a) (ha : tag a = any) (hb : b ∈ as)
    (hne : tag b ≠ any) : ∃ n, Literal (tag b).text.toList n ∧ minShort ≤ n ∧ n < 0 := by
  rw [latestBy_eq_argmax] at hlatest
  have hle : (tag b).resolve ≤ (tag a).resolve :=
    List.le_of_mem_argmax (f := fun e => (tag e).resolve) hb hlatest
  have hunknown : (tag a).resolve = -1 := by
    rw [ha]
    rfl
  have hneg : (tag b).resolve < 0 := by omega
  exact (resolve_eq_iff.mp rfl).exists_literal (mt mk_eq_any_iff.mpr hne) hneg

/-- **Version tags.** Every tag has one version: that of an unknown version, that of a literal of 32
bits, or the number of its first eight digits. The text of every version has that version, whatever
zeros it begins with; eight digits never overflow; and an unknown version is the latest of several
only if all others are negative literals. -/
theorem version_tags_resolve :
    (∀ (t : String) (n : Int), (VersionTag.mk t).resolve = n ↔ Resolves t n) ∧
    (∀ (zeros : Nat) (n : Int), IsShort n →
      (VersionTag.mk (String.ofList (zeroFilled zeros n))).resolve = n) ∧
    (∀ t, checkedValue? (leadingDigits t) = some (number (leadingDigits t) : Int) ∧
      number (leadingDigits t) ≤ 99999999) ∧
    ∀ {α : Type} (tag : α → VersionTag) (as : List α) (a : α),
      latestBy (fun e => (tag e).resolve) as = some a → tag a = any →
      ∀ b ∈ as, tag b ≠ any → ∃ n, Literal (tag b).text.toList n ∧ minShort ≤ n ∧ n < 0 :=
  ⟨fun _ _ => resolve_eq_iff, fun zeros _ hshort => resolve_zeroFilled zeros hshort,
    fun t => ⟨checkedValue?_leadingDigits t, number_leadingDigits_le t⟩,
    fun _ _ _ hlatest ha _ hb hne => exists_negative_of_latestBy_any hlatest ha hb hne⟩

/-- The unknown version comes before a literal of the same version and so is the latest. -/
theorem version_tags_resolve_negative :
    let tags : List VersionTag := [⟨"-7"⟩, any, ⟨"-0001"⟩]
    latestBy (fun e => e.resolve) tags = some any ∧ ⟨"-0001"⟩ ∈ tags ∧ ⟨"-0001"⟩ ≠ any ∧
      (∃ n, Literal "-0001".toList n ∧ minShort ≤ n ∧ n < 0) ∧
      IsShort (-1) ∧ (VersionTag.mk (String.ofList (zeroFilled 3 (-1)))).resolve = -1 := by
  intro tags
  obtain ⟨-, hzeros, -, hunknown⟩ := version_tags_resolve
  have hlatest : latestBy (fun e => e.resolve) tags = some any := by decide
  have hmem : ⟨"-0001"⟩ ∈ tags := by decide
  have hne : (⟨"-0001"⟩ : VersionTag) ≠ any := by decide
  have hshort : IsShort (-1) := ⟨by decide, by decide⟩
  exact ⟨hlatest, hmem, hne, hunknown (fun e => e) tags any hlatest rfl _ hmem hne, hshort,
    hzeros 3 (-1) hshort⟩

end Interchange
