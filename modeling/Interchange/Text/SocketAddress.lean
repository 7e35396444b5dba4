import Interchange.Text.Decimal
import Interchange.Text.Hexadecimal
import Interchange.Width

/-!
# Socket addresses

A server listens at one of the ports of an IP address. Addresses of four octets are written
in decimal and followed by the number, `127.0.0.1:3000`. Addresses of eight groups of 16 bits
stand in brackets, `[::1]:3000`, may name a scope, `[fe80::1%2]:80`, and have many written
forms: `::` stands for groups that are zero, and the last two groups may be written as four
octets.

`SocketAddress.read?` accepts all of these; `SocketAddress.text` writes one of them.
-/

namespace Interchange

/-- One of the ports of an IP address. -/
inductive SocketAddress where
  | v4 (octets : Vector UInt8 4) (portNumber : UInt16)
  | v6 (groups : Vector UInt16 8) (scope : UInt32) (portNumber : UInt16)
deriving DecidableEq

namespace SocketAddress

/-! ### Reading numbers -/

/-- Reads from the front of a text, and returns what is left. -/
abbrev Reader (α : Type) := List Char → Option (α × List Char)

/-- A decimal number below `limit`, with any number of leading zeros. -/
def readNumber (limit : Nat) : Reader Nat := fun cs =>
  let (digits, rest) := cs.span Char.isDigit
  match Decimal.natural? digits with
  | some n => if n < limit then some (n, rest) else none
  | none => none

/-- An octet: up to three decimal digits without a leading zero. -/
def readOctet : Reader UInt8 := fun cs =>
  let (digits, rest) := cs.span Char.isDigit
  if 3 < digits.length ∨ (digits.head? = some '0' ∧ 1 < digits.length) then none
  else match Decimal.natural? digits with
    | some n => if n < 256 then some (UInt8.ofNat n, rest) else none
    | none => none

/-- A group: up to four hexadecimal digits. -/
def readGroup : Reader UInt16 := fun cs =>
  let (digits, rest) := cs.span fun c => (Hexadecimal.digitValue? c).isSome
  if digits = [] ∨ 4 < digits.length then none
  else some (UInt16.ofNat (Hexadecimal.value digits), rest)

/-- A given character. -/
def readChar (c : Char) : Reader Unit
  | c' :: cs => if c' = c then some ((), cs) else none
  | [] => none

/-! ### Reading addresses -/

/-- Four octets with points between them. -/
def readOctets : Reader (Vector UInt8 4) := fun cs => do
  let (a, cs) ← readOctet cs
  let ((), cs) ← readChar '.' cs
  let (b, cs) ← readOctet cs
  let ((), cs) ← readChar '.' cs
  let (c, cs) ← readOctet cs
  let ((), cs) ← readChar '.' cs
  let (d, cs) ← readOctet cs
  return (#v[a, b, c, d], cs)

/-- Two octets as one group. -/
def joinOctets (a b : UInt8) : UInt16 := UInt16.ofNat (a.toNat * 256 + b.toNat)

/-- The groups at the front of a text, at most `limit` of them; the flag says whether the last
two were written as octets, which ends the groups. A text that starts with none has none.
Before every group but the very first there is a colon. -/
def readGroups (first : Bool) : Nat → List Char → (List UInt16 × Bool) × List Char
  | 0, cs => (([], false), cs)
  | limit + 1, cs =>
    let start := if first then some ((), cs) else readChar ':' cs
    match start with
    | none => (([], false), cs)
    | some ((), start) =>
      match if 0 < limit then readOctets start else none with
      | some (v, rest) => (([joinOctets v[0] v[1], joinOctets v[2] v[3]], true), rest)
      | none =>
        match readGroup start with
        | none => (([], false), cs)
        | some (g, rest) =>
          let ((gs, octets), rest) := readGroups false limit rest
          ((g :: gs, octets), rest)

/-- The eight groups that `front` and `back` make with zeros between them. -/
def fillGroups (front back : List UInt16) : Option (Vector UInt16 8) :=
  let groups := front ++ List.replicate (8 - front.length - back.length) 0 ++ back
  if h : groups.length = 8 then some ⟨groups.toArray, by simpa using h⟩ else none

/-- Eight groups, written out or with a double colon in place of one or more zeros. -/
def readEightGroups : Reader (Vector UInt16 8) := fun cs => do
  let ((front, octets), cs) := readGroups true 8 cs
  if front.length = 8 then return (← fillGroups front [], cs)
  else if octets then none
  else
    let ((), cs) ← readChar ':' cs
    let ((), cs) ← readChar ':' cs
    let ((back, _), cs) := readGroups true (7 - front.length) cs
    return (← fillGroups front back, cs)

/-- A colon and the number behind it. -/
def readPortNumber : Reader UInt16 := fun cs => do
  let ((), cs) ← readChar ':' cs
  let (n, cs) ← readNumber 65536 cs
  return (UInt16.ofNat n, cs)

/-- A percent sign and the number of a scope. -/
def readScope : Reader UInt32 := fun cs => do
  let ((), cs) ← readChar '%' cs
  let (n, cs) ← readNumber shortCountLimit cs
  return (UInt32.ofNat n, cs)

/-- Octets and a number. -/
def readV4 : Reader SocketAddress := fun cs => do
  let (octets, cs) ← readOctets cs
  let (portNumber, cs) ← readPortNumber cs
  return (.v4 octets portNumber, cs)

/-- Groups in brackets, perhaps with a scope, and a number. -/
def readV6 : Reader SocketAddress := fun cs => do
  let ((), cs) ← readChar '[' cs
  let (groups, cs) ← readEightGroups cs
  let (scope, cs) := (readScope cs).getD (0, cs)
  let ((), cs) ← readChar ']' cs
  let (portNumber, cs) ← readPortNumber cs
  return (.v6 groups scope portNumber, cs)

/-- Reads a socket address that takes up all of a text. -/
def read? (s : String) : Option SocketAddress :=
  match readV4 s.toList <|> readV6 s.toList with
  | some (address, []) => some address
  | _ => none

/-! ### Writing -/

/-- Octets with points between them. -/
def octetsText (octets : List Nat) : List Char := ['.'].intercalate (octets.map Decimal.digits)

/-- Groups with colons between them. -/
def groupsText (groups : List UInt16) : List Char :=
  [':'].intercalate (groups.map fun g => Hexadecimal.digits g.toNat)

/-- Where a run of zeros starts and how long it is. -/
structure ZeroRun where
  start : Nat
  length : Nat

/-- The longest run of zeros, and the first of several. The run that ends before the groups
at hand, of which the first has index `i`, is `current`. -/
def longestZeroRun (longest current : ZeroRun) (i : Nat) : List UInt16 → ZeroRun
  | [] => longest
  | g :: gs =>
    if g = 0 then
      let current := ⟨if current.length = 0 then i else current.start, current.length + 1⟩
      longestZeroRun (if longest.length < current.length then current else longest) current
        (i + 1) gs
    else longestZeroRun longest ⟨0, 0⟩ (i + 1) gs

/-- The groups of an address: an address that stands for one of four octets shows them, and
otherwise a double colon stands for the longest run of at least two zeros. -/
def v6Text (groups : List UInt16) : List Char :=
  match groups with
  | [0, 0, 0, 0, 0, 0xffff, a, b] =>
    "::ffff:".toList ++
      octetsText [a.toNat / 256, a.toNat % 256, b.toNat / 256, b.toNat % 256]
  | groups =>
    let run := longestZeroRun ⟨0, 0⟩ ⟨0, 0⟩ 0 groups
    if 1 < run.length then
      groupsText (groups.take run.start) ++
        ':' :: ':' :: groupsText (groups.drop (run.start + run.length))
    else groupsText groups

/-- The written form of a socket address. -/
def text : SocketAddress → String
  | .v4 octets portNumber =>
    String.ofList
      (octetsText (octets.toList.map UInt8.toNat) ++ ':' :: Decimal.digits portNumber.toNat)
  | .v6 groups scope portNumber =>
    let scope := if scope = 0 then [] else '%' :: Decimal.digits scope.toNat
    String.ofList
      ('[' :: (v6Text groups.toList ++ scope ++ ']' :: ':' :: Decimal.digits portNumber.toNat))

end SocketAddress

end Interchange
