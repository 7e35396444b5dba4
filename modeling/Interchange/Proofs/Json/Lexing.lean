import Interchange.Json.Token
import Interchange.Json.Value
import Mathlib.Data.List.TakeWhile
import Mathlib.Tactic.Common

/-!
# The tokens of written values

The text of a value splits into the tokens that were put there (`tokens_render`), whatever follows
it. Strings may hold any characters: each one is written as one element of the string's body, and
read back as itself (`stringBody?_quoted`). A number ends where something stands that cannot
continue it (`EndsNumber`), and it is read back as an integer if it fits 64 bits
(`Value.InWidth`).
-/

namespace Interchange.Json

/-! ### Strings -/

/-- The element of a string's body that a character is written as: control characters without a
short escape are written by their codes. -/
def pieceOf (c : Char) : Piece :=
  if c.toNat < 0x20 ∧ c ∉ ['\n', '\r', '\t', '\x08', '\x0c'] then .code c.toNat else .char c

private theorem stringBody?_short {e c : Char} (h : shortEscape? e = some c) (rest : List Char) :
    stringBody? ('\\' :: e :: rest) = (stringBody? rest).map fun p => (.char c :: p.1, p.2) := by
  have hu : e ≠ 'u' := by
    rintro rfl
    cases h
  rw [stringBody?, h]
  · cases stringBody? rest <;> rfl
  · exact fun _ _ _ _ _ he _ => hu he

private theorem stringBody?_plain {c : Char} (hquote : c ≠ '"') (hslash : c ≠ '\\')
    (hcontrol : ¬ c.toNat < 0x20) (rest : List Char) :
    stringBody? (c :: rest) = (stringBody? rest).map fun p => (.char c :: p.1, p.2) := by
  rw [stringBody?, if_neg hcontrol]
  · cases stringBody? rest <;> rfl
  · exact hquote
  · exact fun _ _ _ _ _ h => absurd h hslash
  · exact fun h => absurd h hslash
  · exact fun _ _ h => absurd h hslash

/-- Two hexadecimal digits behind two zeros are read as the code of a control character. -/
private theorem hexCode?_control {n : Nat} (h : n < 0x20) :
    hexCode? '0' '0' (Hexadecimal.digit (n / 16)) (Hexadecimal.digit (n % 16)) = some n := by
  have hzero : Hexadecimal.digitValue? '0' = some 0 := rfl
  have hhigh := Hexadecimal.digitValue?_digit (n / 16) (by omega)
  have hlow := Hexadecimal.digitValue?_digit (n % 16) (by omega)
  simp only [hexCode?, hzero, hhigh, hlow, Option.bind_eq_bind, Option.bind_some, Option.pure_def]
  congr 1
  omega

private theorem stringBody?_control {n : Nat} (h : n < 0x20) (rest : List Char) :
    stringBody? ('\\' :: 'u' :: '0' :: '0' :: Hexadecimal.digit (n / 16) ::
      Hexadecimal.digit (n % 16) :: rest) =
        (stringBody? rest).map fun p => (.code n :: p.1, p.2) := by
  rw [stringBody?, hexCode?_control h]
  cases stringBody? rest <;> rfl

/-- Each character is read back as one element. -/
private theorem stringBody?_escaped (c : Char) (rest : List Char) :
    stringBody? (escaped c ++ rest) = (stringBody? rest).map fun p => (pieceOf c :: p.1, p.2) := by
  unfold escaped
  split_ifs with hquote hslash hn hr ht hb hf hcontrol
  · subst hquote
    exact stringBody?_short (c := '"') rfl rest
  · subst hslash
    exact stringBody?_short (c := '\\') rfl rest
  · subst hn
    exact stringBody?_short (c := '\n') rfl rest
  · subst hr
    exact stringBody?_short (c := '\r') rfl rest
  · subst ht
    exact stringBody?_short (c := '\t') rfl rest
  · subst hb
    exact stringBody?_short (c := '\x08') rfl rest
  · subst hf
    exact stringBody?_short (c := '\x0c') rfl rest
  · have hpiece : pieceOf c = .code c.toNat :=
      if_pos ⟨hcontrol, by simp [hn, hr, ht, hb, hf]⟩
    rw [hpiece]
    exact stringBody?_control hcontrol rest
  · have hpiece : pieceOf c = .char c := if_neg fun h => hcontrol h.1
    rw [hpiece]
    exact stringBody?_plain hquote hslash hcontrol rest

/-- What is quoted ends at the closing quote, for no quote stands in it unescaped. -/
theorem stringBody?_quoted (cs rest : List Char) :
    stringBody? (cs.flatMap escaped ++ '"' :: rest) = some (cs.map pieceOf, rest) := by
  induction cs with
  | nil => rfl
  | cons c cs ih =>
    rw [List.flatMap_cons, List.append_assoc, stringBody?_escaped, ih]
    rfl

/-- A code that is no half of a surrogate pair is a character by itself. -/
private theorem chars?_code {n : Nat} (hhigh : isHighSurrogate n = false)
    (hlow : isLowSurrogate n = false) (ps : List Piece) :
    Piece.chars? (.code n :: ps) = (Char.ofNat n :: ·) <$> Piece.chars? ps := by
  match ps with
  | [] => simp [Piece.chars?, hhigh, hlow]
  | .code m :: ps => simp [Piece.chars?, hhigh, hlow]
  | .char c :: ps => simp [Piece.chars?, hhigh, hlow, Function.comp_def]

private theorem chars?_pieceOf (c : Char) (ps : List Piece) :
    Piece.chars? (pieceOf c :: ps) = (c :: ·) <$> Piece.chars? ps := by
  rw [pieceOf]
  split_ifs with h
  · have hlt := h.1
    rw [chars?_code, Char.ofNat_toNat]
    · simp only [isHighSurrogate, Bool.and_eq_false_iff, decide_eq_false_iff_not]
      omega
    · simp only [isLowSurrogate, Bool.and_eq_false_iff, decide_eq_false_iff_not]
      omega
  · rfl

/-- **Strings.** Whatever characters a string has, they are read back. -/
theorem chars?_map_pieceOf (cs : List Char) : Piece.chars? (cs.map pieceOf) = some cs := by
  induction cs with
  | nil => rfl
  | cons c cs ih =>
    rw [List.map_cons, chars?_pieceOf, ih]
    rfl

private theorem read?_quoted (s : String) (rest : List Char) :
    Token.read? '"' (s.toList.flatMap escaped ++ '"' :: rest) =
      some (.scalar (.string s), rest) := by
  simp only [Token.read?, stringBody?_quoted, Option.map_some, stringScalar, chars?_map_pieceOf,
    String.ofList_toList]

/-! ### Numbers -/

/-- What follows a number does not continue it. -/
def EndsNumber (rest : List Char) : Prop :=
  ∀ c ∈ rest.head?, c.isDigit = false ∧ c ≠ '.' ∧ c ≠ 'e' ∧ c ≠ 'E'

/-- The digits of a number end where the number ends. -/
private theorem spanDigits_append {ds rest : List Char} (hds : ds.all Char.isDigit = true)
    (hrest : EndsNumber rest) : spanDigits (ds ++ rest) = (ds, rest) := by
  have hall : ∀ c ∈ ds, c.isDigit = true := List.all_eq_true.mp hds
  rw [spanDigits, List.takeWhile_append_of_pos hall, List.dropWhile_append_of_pos hall]
  cases rest with
  | nil => simp
  | cons c rest =>
    have hc := (hrest c rfl).1
    simp [hc]

/-- Only zero starts with the digit zero. -/
private theorem head?_digits_ne_zero {n : Nat} (h : 0 < n) :
    (Decimal.digits n).head? ≠ some '0' := by
  induction n using Decimal.digits.induct with
  | case1 n hlt =>
    have hdigit : ∀ m < 10, 0 < m → Decimal.digit m ≠ '0' := by decide
    rw [Decimal.digits, if_pos hlt]
    simpa using hdigit n hlt h
  | case2 n hlt ih =>
    obtain ⟨d, ds, hds⟩ := List.exists_cons_of_ne_nil (Decimal.digits_ne_nil (n / 10))
    rw [Decimal.digits, if_neg hlt, hds]
    rw [hds] at ih
    exact ih (by omega)

/-- No number is written with a zero in front of other digits. -/
private theorem digits_ne_zero_cons (n : Nat) (c : Char) (ds : List Char) :
    Decimal.digits n ≠ '0' :: c :: ds := by
  intro h
  rcases Nat.eq_zero_or_pos n with rfl | hn
  · have hzero : Decimal.digits 0 = ['0'] := by
      rw [Decimal.digits]
      rfl
    rw [hzero] at h
    cases h
  · exact head?_digits_ne_zero hn (by rw [h]; rfl)

private theorem whole?_digits (n : Nat) {rest : List Char} (hrest : EndsNumber rest) :
    NumberLiteral.whole? (Decimal.digits n ++ rest) = some (Decimal.digits n, rest) := by
  rw [NumberLiteral.whole?, spanDigits_append (Decimal.all_isDigit_digits n) hrest]
  split
  next heq => exact absurd (Prod.mk.inj heq).1 (Decimal.digits_ne_nil n)
  next heq => exact absurd (Prod.mk.inj heq).1 (digits_ne_zero_cons n _ _)
  next heq =>
    obtain ⟨rfl, rfl⟩ := Prod.mk.inj heq
    rfl

private theorem fraction?_of_endsNumber {rest : List Char} (hrest : EndsNumber rest) :
    NumberLiteral.fraction? rest = some (none, rest) := by
  rw [NumberLiteral.fraction?]
  rintro cs rfl
  exact (hrest '.' rfl).2.1 rfl

private theorem exponent?_of_endsNumber {rest : List Char} (hrest : EndsNumber rest) :
    NumberLiteral.exponent? rest = some (none, rest) := by
  cases rest with
  | nil => rfl
  | cons c rest =>
    obtain ⟨-, -, he, hE⟩ := hrest c rfl
    unfold NumberLiteral.exponent?
    exact if_neg (not_or.mpr ⟨he, hE⟩)

/-- The literal of an integer. -/
def integerLiteral (n : Int) : NumberLiteral :=
  ⟨decide (n < 0), Decimal.digits n.natAbs, none, none⟩

private theorem unsigned?_digits (negative : Bool) (n : Nat) {rest : List Char}
    (hrest : EndsNumber rest) :
    NumberLiteral.unsigned? negative (Decimal.digits n ++ rest) =
      some (⟨negative, Decimal.digits n, none, none⟩, rest) := by
  simp only [NumberLiteral.unsigned?, whole?_digits n hrest, fraction?_of_endsNumber hrest,
    exponent?_of_endsNumber hrest, Option.bind_eq_bind, Option.bind_some, Option.pure_def]

private theorem read?_signed (n : Int) {rest : List Char} (hrest : EndsNumber rest) :
    NumberLiteral.read? (Decimal.signed n ++ rest) = some (integerLiteral n, rest) := by
  rw [Decimal.signed, integerLiteral]
  split_ifs with hn
  · rw [List.cons_append, NumberLiteral.read?, unsigned?_digits true _ hrest, decide_eq_true hn]
  · rw [NumberLiteral.read?, unsigned?_digits false _ hrest, decide_eq_false hn]
    -- no digit is a minus sign
    intro cs hcs
    obtain ⟨d, ds, hds⟩ := List.exists_cons_of_ne_nil (Decimal.digits_ne_nil n.natAbs)
    have hdigit := List.all_eq_true.mp (Decimal.all_isDigit_digits n.natAbs)
    rw [hds] at hcs hdigit
    obtain rfl : d = '-' := (List.cons.inj hcs).1
    exact absurd (hdigit _ List.mem_cons_self) (by decide)

/-! The significand takes all digits of a number that fits 64 bits. -/

private theorem le_foldl_digits (s : Nat) (cs : List Char) :
    s ≤ cs.foldl (fun n c => n * 10 + Decimal.digitValue c) s := by
  induction cs generalizing s with
  | nil => exact Nat.le_refl s
  | cons c cs ih =>
    have hstep : s ≤ s * 10 + Decimal.digitValue c := by omega
    exact Nat.le_trans hstep (ih _)

/-- Digits are taken up as long as the significand stays within its limit. -/
private theorem extendSignificand_eq {s : Nat} {cs : List Char}
    (h : cs.foldl (fun n c => n * 10 + Decimal.digitValue c) s ≤ significandLimit) :
    extendSignificand s cs = (cs.foldl (fun n c => n * 10 + Decimal.digitValue c) s, []) := by
  induction cs generalizing s with
  | nil => rfl
  | cons c cs ih =>
    rw [List.foldl_cons] at h ⊢
    rw [extendSignificand, if_pos (Nat.le_trans (le_foldl_digits _ cs) h), ih h]

private theorem extendSignificand_digits {n : Nat} (h : n ≤ significandLimit) :
    extendSignificand 0 (Decimal.digits n) = (n, []) := by
  have hvalue : (Decimal.digits n).foldl (fun n c => n * 10 + Decimal.digitValue c) 0 = n :=
    Decimal.value_digits n
  rw [extendSignificand_eq (Nat.le_trans (Nat.le_of_eq hvalue) h), hvalue]

/-- The integer can be read back: it fits 64 bits, signed or not. -/
def FitsLiteral (n : Int) : Prop := -9223372036854775808 ≤ n ∧ n < countLimit

private theorem number?_integerLiteral {n : Int} (h : FitsLiteral n) :
    (integerLiteral n).number? = some (.integer n) := by
  have hlimit : n.natAbs ≤ significandLimit := by
    simp only [FitsLiteral, significandLimit, countLimit] at *
    omega
  simp only [NumberLiteral.number?, integerLiteral, extendSignificand_digits hlimit]
  rcases Int.lt_or_le n 0 with hn | hn
  · have hzero : ¬ n.natAbs = 0 := by omega
    have hsmall : n.natAbs ≤ 9223372036854775808 := by
      simp only [FitsLiteral] at h
      omega
    rw [if_neg (by simpa using hn), if_neg hzero, if_pos hsmall]
    congr 2
    omega
  · rw [if_pos (by simpa using hn)]
    congr 2
    omega

/-- **Numbers.** An integer that fits is read back. -/
theorem numberToken?_signed {n : Int} (h : FitsLiteral n) {rest : List Char}
    (hrest : EndsNumber rest) :
    numberToken? (Decimal.signed n ++ rest) = some (.scalar (.number (.integer n)), rest) := by
  simp only [numberToken?, read?_signed n hrest, Option.map_some, number?_integerLiteral h]

private theorem read?_of_number {c : Char} (h : c = '-' ∨ c.isDigit = true) (cs : List Char) :
    Token.read? c cs = numberToken? (c :: cs) := by
  have hne : ∀ d, d ≠ '-' → d.isDigit = false → c ≠ d := by
    rintro d hminus hdigit rfl
    rcases h with h | h
    · exact hminus h
    · rw [hdigit] at h
      cases h
  rw [Token.read?]
  all_goals first
    | exact fun h => hne _ (by decide) (by decide) h
    | exact fun _ h => absurd h (hne _ (by decide) (by decide))

/-! ### Values -/

mutual

/-- Every integer in the value fits 64 bits. -/
def Value.InWidth : Value → Prop
  | .null | .bool _ | .string _ => True
  | .integer n => FitsLiteral n
  | .array items => Value.ItemsInWidth items
  | .object members => Value.MembersInWidth members

/-- Every integer in the items fits 64 bits. -/
def Value.ItemsInWidth : List Value → Prop
  | [] => True
  | v :: vs => v.InWidth ∧ Value.ItemsInWidth vs

/-- Every integer in the members fits 64 bits. -/
def Value.MembersInWidth : List (String × Value) → Prop
  | [] => True
  | (_, v) :: ms => v.InWidth ∧ Value.MembersInWidth ms

end

theorem inWidth_count {n : Nat} (h : n < countLimit) : (Value.count n).InWidth := by
  simp only [Value.count, Value.InWidth, FitsLiteral]
  omega

theorem inWidth_shortCount {n : Nat} (h : n < shortCountLimit) : (Value.count n).InWidth :=
  inWidth_count (Nat.lt_trans h (by decide))

theorem inWidth_shortInteger {n : Int} (h : minShort ≤ n ∧ n ≤ maxShort) :
    (Value.integer n).InWidth := by
  simp only [Value.InWidth, FitsLiteral, countLimit, minShort, maxShort] at *
  omega

theorem inWidth_nullable {α : Type} {g : α → Value} {o : Option α}
    (h : ∀ a ∈ o, (g a).InWidth) : (Value.nullable g o).InWidth := by
  cases o with
  | none => trivial
  | some a => exact h a rfl

theorem inWidth_list {α : Type} {g : α → Value} {as : List α} (h : ∀ a ∈ as, (g a).InWidth) :
    (Value.list g as).InWidth := by
  rw [Value.list, Value.InWidth]
  induction as with
  | nil => trivial
  | cons a as ih =>
    obtain ⟨ha, has⟩ := List.forall_mem_cons.mp h
    exact ⟨ha, ih has⟩

mutual

/-- The tokens of a value. -/
def Value.tokens : Value → List Token
  | .null => [.scalar .null]
  | .bool b => [.scalar (.bool b)]
  | .integer n => [.scalar (.number (.integer n))]
  | .string s => [.scalar (.string s)]
  | .array [] => [.openBracket, .closeBracket]
  | .array (v :: vs) => .openBracket :: (v.tokens ++ Value.itemTokens vs)
  | .object [] => [.openBrace, .closeBrace]
  | .object ((k, v) :: ms) =>
    .openBrace :: .scalar (.string k) :: .colon :: (v.tokens ++ Value.memberTokens ms)

/-- The tokens of the further items of an array and its closing bracket. -/
def Value.itemTokens : List Value → List Token
  | [] => [.closeBracket]
  | v :: vs => .comma :: (v.tokens ++ Value.itemTokens vs)

/-- The tokens of the further members of an object and its closing brace. -/
def Value.memberTokens : List (String × Value) → List Token
  | [] => [.closeBrace]
  | (k, v) :: ms =>
    .comma :: .scalar (.string k) :: .colon :: (v.tokens ++ Value.memberTokens ms)

end

private theorem tokens_cons {c : Char} {cs rest : List Char} {t : Token}
    (hblank : isBlank c = false) (h : Token.read? c cs = some (t, rest)) :
    tokens (c :: cs) = t :: tokens rest := by
  rw [tokens, if_neg (Bool.eq_false_iff.mp hblank)]
  split
  next heq =>
    rw [h] at heq
    cases heq
  next heq =>
    rw [h] at heq
    obtain ⟨rfl, rfl⟩ := Prod.mk.inj (Option.some.inj heq)
    rfl

private theorem tokens_quoted (s : String) (rest : List Char) :
    tokens (quoted s.toList ++ rest) = .scalar (.string s) :: tokens rest := by
  rw [quoted, List.cons_append, List.append_assoc, List.singleton_append]
  exact tokens_cons rfl (read?_quoted s rest)

private theorem tokens_signed {n : Int} (h : FitsLiteral n) {rest : List Char}
    (hrest : EndsNumber rest) :
    tokens (Decimal.signed n ++ rest) = .scalar (.number (.integer n)) :: tokens rest := by
  have hsome := numberToken?_signed h hrest
  obtain ⟨c, cs, hsigned, hc⟩ :
      ∃ c cs, Decimal.signed n = c :: cs ∧ (c = '-' ∨ c.isDigit = true) := by
    rw [Decimal.signed]
    split_ifs
    · exact ⟨'-', _, rfl, .inl rfl⟩
    · obtain ⟨d, ds, hds⟩ := List.exists_cons_of_ne_nil (Decimal.digits_ne_nil n.natAbs)
      have hdigit := List.all_eq_true.mp (Decimal.all_isDigit_digits n.natAbs)
      rw [hds] at hdigit
      exact ⟨d, ds, hds, .inr (hdigit d List.mem_cons_self)⟩
  have hblank : isBlank c = false := by
    rw [Bool.eq_false_iff]
    intro hblank
    simp only [isBlank, Bool.or_eq_true, decide_eq_true_eq] at hblank
    rcases hblank with ((rfl | rfl) | rfl) | rfl <;> rcases hc with hc | hc <;> revert hc <;> decide
  rw [hsigned, List.cons_append] at hsome ⊢
  exact tokens_cons hblank ((read?_of_number hc _).trans hsome)

/-- What stands behind an item or a member does not continue a number. -/
private theorem endsNumber_renderItems (vs : List Value) (rest : List Char) :
    EndsNumber (Value.renderItems vs ++ rest) := by
  rintro c hc
  cases vs <;> obtain rfl := Option.some.inj hc <;> decide

private theorem endsNumber_renderMembers (ms : List (String × Value)) (rest : List Char) :
    EndsNumber (Value.renderMembers ms ++ rest) := by
  rintro c hc
  obtain _ | ⟨⟨k, v⟩, ms⟩ := ms <;> obtain rfl := Option.some.inj hc <;> decide

mutual

/-- **Texts of values.** The text of a value splits into the tokens of the value, whatever
follows it. -/
theorem tokens_render : ∀ (v : Value) (rest : List Char), v.InWidth → EndsNumber rest →
    tokens (v.render ++ rest) = v.tokens ++ tokens rest
  | .null, rest, _, _ => tokens_cons rfl rfl
  | .bool true, rest, _, _ => tokens_cons rfl rfl
  | .bool false, rest, _, _ => tokens_cons rfl rfl
  | .integer n, rest, h, hrest => tokens_signed h hrest
  | .string s, rest, _, _ => tokens_quoted s rest
  | .array [], rest, _, _ =>
    (tokens_cons rfl rfl).trans (congrArg _ (tokens_cons (c := ']') rfl rfl))
  | .array (v :: vs), rest, h, _ => by
    rw [Value.render, List.cons_append, List.append_assoc, tokens_cons rfl rfl,
      tokens_render v _ h.1 (endsNumber_renderItems vs rest), tokens_renderItems vs rest h.2,
      Value.tokens, List.cons_append, List.append_assoc]
  | .object [], rest, _, _ =>
    (tokens_cons rfl rfl).trans (congrArg _ (tokens_cons (c := '}') rfl rfl))
  | .object ((k, v) :: ms), rest, h, _ => by
    rw [Value.render, List.cons_append, List.append_assoc, tokens_cons rfl rfl, tokens_quoted,
      List.cons_append, List.append_assoc, tokens_cons rfl rfl,
      tokens_render v _ h.1 (endsNumber_renderMembers ms rest), tokens_renderMembers ms rest h.2,
      Value.tokens, List.cons_append, List.cons_append, List.cons_append, List.append_assoc]

private theorem tokens_renderItems : ∀ (vs : List Value) (rest : List Char), Value.ItemsInWidth vs →
    tokens (Value.renderItems vs ++ rest) = Value.itemTokens vs ++ tokens rest
  | [], rest, _ => tokens_cons rfl rfl
  | v :: vs, rest, h => by
    rw [Value.renderItems, List.cons_append, List.append_assoc, tokens_cons rfl rfl,
      tokens_render v _ h.1 (endsNumber_renderItems vs rest), tokens_renderItems vs rest h.2,
      Value.itemTokens, List.cons_append, List.append_assoc]

private theorem tokens_renderMembers : ∀ (ms : List (String × Value)) (rest : List Char),
    Value.MembersInWidth ms →
      tokens (Value.renderMembers ms ++ rest) = Value.memberTokens ms ++ tokens rest
  | [], rest, _ => tokens_cons rfl rfl
  | (k, v) :: ms, rest, h => by
    rw [Value.renderMembers, List.cons_append, List.append_assoc, tokens_cons rfl rfl,
      tokens_quoted, List.cons_append, List.append_assoc, tokens_cons rfl rfl,
      tokens_render v _ h.1 (endsNumber_renderMembers ms rest), tokens_renderMembers ms rest h.2,
      Value.memberTokens, List.cons_append, List.cons_append, List.cons_append, List.append_assoc]

end

end Interchange.Json
