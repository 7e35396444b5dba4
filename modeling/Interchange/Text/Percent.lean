import Interchange.Text.Hexadecimal

/-!
# Percent-encoding

In a URI, `%` and two hexadecimal digits stand for a byte; a percent sign without them stands
for itself. Decoded bytes are text only if they are UTF-8.

Queries are encoded as forms are: pairs `name=value` with `&` between them, in which moreover
`+` stands for a blank. The sign is replaced before percent sequences are decoded, so that
`%2B` is a plus sign.
-/

namespace Interchange.Percent

/-- The number that a byte stands for as a hexadecimal digit. -/
def hexByte? (b : UInt8) : Option Nat := Hexadecimal.digitValue? (Char.ofNat b.toNat)

/-- Decodes the percent sequences among bytes. -/
def decodeBytes : List UInt8 → List UInt8
  | 37 :: a :: b :: rest =>
    match hexByte? a, hexByte? b with
    | some x, some y => UInt8.ofNat (x * 16 + y) :: decodeBytes rest
    | _, _ => 37 :: decodeBytes (a :: b :: rest)
  | b :: rest => b :: decodeBytes rest
  | [] => []

/-- The text that a part of a path stands for, if its bytes are UTF-8. -/
def decode? (s : String) : Option String :=
  String.fromUTF8? ⟨(decodeBytes s.toUTF8.toList).toArray⟩

/-! ### Forms -/

/-- The text that a name or a value in a form stands for. -/
def decodeForm? (cs : List Char) : Option String :=
  decode? (String.ofList (cs.map fun c => if c = '+' then ' ' else c))

/-- A pair at its first equals sign; without one, the value is empty. -/
def formPair (cs : List Char) : Option String × Option String :=
  let (name, rest) := cs.span (· ≠ '=')
  (decodeForm? name, decodeForm? (rest.drop 1))

/-- The pairs of a form; a name or value that is not UTF-8 is `none`. -/
def formPairs (cs : List Char) : List (Option String × Option String) :=
  ((cs.splitOn '&').filter (· ≠ [])).map formPair

end Interchange.Percent
