import Interchange.Json.Number
import Interchange.Text.Hexadecimal

/-!
# JSON tokens

`tokens` splits a text into brackets, separators and scalars. A text that is not JSON ends
in the token `illegal` at the first place where no token can start, and what stands before
that place is kept.

Two kinds of scalar are well formed and still have no value: a number that overflows, and a
string that names half of a surrogate pair.
-/

namespace Interchange.Json

/-- A value without parts. -/
inductive Scalar where
  | null
  | bool (b : Bool)
  | number (n : Number)
  | string (s : String)
  /-- A number that overflows -/
  | overflow
  /-- A string with half of a surrogate pair -/
  | unpaired

/-- Whether the scalar has a value. -/
def Scalar.hasValue : Scalar → Bool
  | .overflow | .unpaired => false
  | _ => true

inductive Token where
  | openBracket | closeBracket
  | openBrace | closeBrace
  | comma | colon
  | scalar (s : Scalar)
  /-- No token can start here -/
  | illegal

/-! ### Strings -/

/-- One element of a string's body: a character, or the 16-bit code of a `\u` escape. -/
inductive Piece where
  | char (c : Char)
  | code (n : Nat)

/-- The code written by four hexadecimal digits. -/
def hexCode? (a b c d : Char) : Option Nat := do
  let a ← Hexadecimal.digitValue? a
  let b ← Hexadecimal.digitValue? b
  let c ← Hexadecimal.digitValue? c
  let d ← Hexadecimal.digitValue? d
  return ((a * 16 + b) * 16 + c) * 16 + d

/-- The character a short escape names. -/
def shortEscape? : Char → Option Char
  | '"' => some '"'
  | '\\' => some '\\'
  | '/' => some '/'
  | 'b' => some '\x08'
  | 'f' => some '\x0c'
  | 'n' => some '\n'
  | 'r' => some '\r'
  | 't' => some '\t'
  | _ => none

/-- The body of a string up to its closing quote, and what follows the quote. -/
def stringBody? : List Char → Option (List Piece × List Char)
  | [] => none
  | '"' :: rest => some ([], rest)
  | '\\' :: 'u' :: a :: b :: c :: d :: rest =>
    match hexCode? a b c d, stringBody? rest with
    | some n, some (ps, rest) => some (.code n :: ps, rest)
    | _, _ => none
  | ['\\'] => none
  | '\\' :: e :: rest =>
    match shortEscape? e, stringBody? rest with
    | some c, some (ps, rest) => some (.char c :: ps, rest)
    | _, _ => none
  | c :: rest =>
    if c.toNat < 0x20 then none
    else match stringBody? rest with
      | some (ps, rest) => some (.char c :: ps, rest)
      | none => none

/-- The first code of a surrogate pair. -/
def isHighSurrogate (n : Nat) : Bool := 0xD800 ≤ n && n ≤ 0xDBFF

/-- The second code of a surrogate pair. -/
def isLowSurrogate (n : Nat) : Bool := 0xDC00 ≤ n && n ≤ 0xDFFF

/-- The characters of a string's body: a surrogate pair is one character, and half a pair
is none. -/
def Piece.chars? : List Piece → Option (List Char)
  | [] => some []
  | .char c :: ps => (c :: ·) <$> Piece.chars? ps
  | [.code n] => if isHighSurrogate n || isLowSurrogate n then none else some [Char.ofNat n]
  | .code hi :: .code lo :: ps =>
    if isHighSurrogate hi then
      if isLowSurrogate lo then
        (Char.ofNat (0x10000 + (hi - 0xD800) * 0x400 + (lo - 0xDC00)) :: ·) <$> Piece.chars? ps
      else none
    else if isLowSurrogate hi then none
    else (Char.ofNat hi :: ·) <$> Piece.chars? (.code lo :: ps)
  | .code n :: .char c :: ps =>
    if isHighSurrogate n || isLowSurrogate n then none
    else (Char.ofNat n :: c :: ·) <$> Piece.chars? ps

/-- The scalar of a string's body. -/
def stringScalar (ps : List Piece) : Scalar :=
  match Piece.chars? ps with
  | some cs => .string (String.ofList cs)
  | none => .unpaired

/-! ### Tokens -/

/-- The four characters that may stand between tokens. -/
def isBlank (c : Char) : Bool := c = ' ' || c = '\t' || c = '\n' || c = '\r'

/-- The token of a number, and what follows it. -/
def numberToken? (cs : List Char) : Option (Token × List Char) :=
  (NumberLiteral.read? cs).map fun (l, rest) =>
    (.scalar (match l.number? with
      | some n => .number n
      | none => .overflow), rest)

/-- The token that starts with the character `c`, and what follows it. -/
def Token.read? (c : Char) (cs : List Char) : Option (Token × List Char) :=
  match c, cs with
  | '[', cs => some (.openBracket, cs)
  | ']', cs => some (.closeBracket, cs)
  | '{', cs => some (.openBrace, cs)
  | '}', cs => some (.closeBrace, cs)
  | ',', cs => some (.comma, cs)
  | ':', cs => some (.colon, cs)
  | '"', cs => (stringBody? cs).map fun (ps, rest) => (.scalar (stringScalar ps), rest)
  | 'n', 'u' :: 'l' :: 'l' :: cs => some (.scalar .null, cs)
  | 't', 'r' :: 'u' :: 'e' :: cs => some (.scalar (.bool true), cs)
  | 'f', 'a' :: 'l' :: 's' :: 'e' :: cs => some (.scalar (.bool false), cs)
  | c, cs => numberToken? (c :: cs)

/-! ### A token takes at least one character -/

private theorem length_stringBody? {cs rest : List Char} {ps : List Piece}
    (h : stringBody? cs = some (ps, rest)) : rest.length < cs.length := by
  fun_induction stringBody? cs generalizing ps rest <;>
    simp only [List.length_cons, List.length_nil] at * <;> grind

/-- Behind its first character a token takes what it needs, so reading tokens comes to an end. -/
theorem Token.length_read? {c : Char} {cs rest : List Char} {t : Token}
    (h : Token.read? c cs = some (t, rest)) : rest.length ≤ cs.length := by
  unfold Token.read? at h
  split at h
  case h_7 =>
    simp only [Option.map_eq_some_iff, Prod.exists, Prod.mk.injEq] at h
    obtain ⟨_, _, hb, -, rfl⟩ := h
    exact Nat.le_of_lt (length_stringBody? hb)
  case h_11 =>
    simp only [numberToken?, Option.map_eq_some_iff, Prod.exists, Prod.mk.injEq] at h
    obtain ⟨_, _, hl, -, rfl⟩ := h
    exact Nat.le_of_lt_succ (NumberLiteral.length_read? hl)
  all_goals grind

/-! ### A whole text -/

/-- The tokens of a text, up to the first place where no token can start. -/
def tokens (cs : List Char) : List Token :=
  match cs with
  | [] => []
  | c :: cs =>
    if isBlank c then tokens cs
    else match _h : Token.read? c cs with
      | none => [.illegal]
      | some (t, rest) => t :: tokens rest
termination_by cs.length
decreasing_by
  · simp
  · have := Token.length_read? _h
    simp only [List.length_cons]
    omega

end Interchange.Json
