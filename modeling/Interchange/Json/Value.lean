import Interchange.Text.Decimal
import Interchange.Text.Hexadecimal

/-!
# JSON values and their text

`Value` is what the library writes: every number in it is an integer, and the members of an
object keep their order. `render` writes a value without any blanks; only the quote, the
backslash and the control characters are escaped.
-/

namespace Interchange.Json

/-- A JSON value to be written. -/
inductive Value where
  | null
  | bool (b : Bool)
  | integer (n : Int)
  | string (s : String)
  | array (items : List Value)
  | object (members : List (String × Value))

/-! ### Strings -/

/-- The written form of one character of a string. -/
def escaped (c : Char) : List Char :=
  if c = '"' then ['\\', '"']
  else if c = '\\' then ['\\', '\\']
  else if c = '\n' then ['\\', 'n']
  else if c = '\r' then ['\\', 'r']
  else if c = '\t' then ['\\', 't']
  else if c = '\x08' then ['\\', 'b']
  else if c = '\x0c' then ['\\', 'f']
  else if c.toNat < 0x20 then
    ['\\', 'u', '0', '0', Hexadecimal.digit (c.toNat / 16), Hexadecimal.digit (c.toNat % 16)]
  else [c]

/-- A string between quotes. -/
def quoted (cs : List Char) : List Char := '"' :: (cs.flatMap escaped ++ ['"'])

/-! ### Values -/

mutual

/-- The text of a value. -/
def Value.render : Value → List Char
  | .null => ['n', 'u', 'l', 'l']
  | .bool true => ['t', 'r', 'u', 'e']
  | .bool false => ['f', 'a', 'l', 's', 'e']
  | .integer n => Decimal.signed n
  | .string s => quoted s.toList
  | .array [] => ['[', ']']
  | .array (v :: vs) => '[' :: (v.render ++ Value.renderItems vs)
  | .object [] => ['{', '}']
  | .object ((k, v) :: ms) =>
    '{' :: (quoted k.toList ++ ':' :: (v.render ++ Value.renderMembers ms))

/-- The further items of an array and its closing bracket. -/
def Value.renderItems : List Value → List Char
  | [] => [']']
  | v :: vs => ',' :: (v.render ++ Value.renderItems vs)

/-- The further members of an object and its closing brace. -/
def Value.renderMembers : List (String × Value) → List Char
  | [] => ['}']
  | (k, v) :: ms =>
    ',' :: (quoted k.toList ++ ':' :: (v.render ++ Value.renderMembers ms))

end

/-- The text of a value. -/
def Value.text (v : Value) : String := String.ofList v.render

/-! ### Building values -/

/-- A count. -/
def Value.count (n : Nat) : Value := .integer n

/-- A value that may be missing, written as null then. -/
def Value.nullable (f : α → Value) : Option α → Value
  | none => .null
  | some a => f a

/-- A list, item by item. -/
def Value.list (f : α → Value) (as : List α) : Value := .array (as.map f)

end Interchange.Json
