import Interchange.Json.Document
import Interchange.Text.Shortest

/-!
# The text of a document

`Document.text` writes a document without any blanks. An integer is written with all its
digits, and a double as the shortest decimal that is rounded to it: with a point from `10^-5`
up to `10^16`, and with an exponent outside these bounds. A document that breaks off is written
as if what is open were closed, and what has no value as null.
-/

namespace Interchange.Json

/-! ### Doubles -/

/-- The digits of a decimal with a power of ten behind them, laid out as a JSON number that is
no integer literal. -/
def layOut (digits : List Char) (exponent : Int) : List Char :=
  let point : Int := digits.length + exponent
  if 0 ≤ exponent ∧ point ≤ 16 then digits ++ List.replicate exponent.toNat '0' ++ ['.', '0']
  else if 0 < point ∧ point ≤ 16 then
    digits.take point.toNat ++ '.' :: digits.drop point.toNat
  else if -5 < point ∧ point ≤ 0 then
    '0' :: '.' :: (List.replicate (-point).toNat '0' ++ digits)
  else
    let rest := digits.drop 1
    digits.take 1 ++ (if rest = [] then [] else '.' :: rest) ++ 'e' :: Decimal.signed (point - 1)

/-- The text of a double; JSON has no infinities. -/
def renderDouble (x : Float) : List Char :=
  match Exact.ofBits x.toBits with
  | .finite negative mantissa exponent =>
    let sign := if negative then ['-'] else []
    if mantissa = 0 then sign ++ ['0', '.', '0']
    else
      let d := Shortest.find mantissa exponent
      sign ++ layOut (Decimal.digits d.significand) d.exponent
  | .infinite _ | .notANumber => Value.null.render

/-! ### Documents -/

/-- The text of a scalar. -/
def Scalar.render : Scalar → List Char
  | .null | .overflow | .unpaired => Value.null.render
  | .bool b => (Value.bool b).render
  | .number (.integer n) => Decimal.signed n
  | .number (.double x) => renderDouble x
  | .string s => quoted s.toList

mutual

/-- The text of a document. -/
def Document.render : Document → List Char
  | .scalar s => s.render
  | .array [] _ => ['[', ']']
  | .array (d :: ds) _ => '[' :: (d.render ++ Document.renderItems ds)
  | .object [] _ | .mapping [] => ['{', '}']
  | .object ((name, d) :: ms) _ | .mapping ((name, d) :: ms) =>
    '{' :: (quoted name.toList ++ ':' :: (d.render ++ Document.renderMembers ms))
  | .unnamed d => d.render
  | .broken => Value.null.render

/-- The further items of an array and its closing bracket. -/
def Document.renderItems : List Document → List Char
  | [] => [']']
  | d :: ds => ',' :: (d.render ++ Document.renderItems ds)

/-- The further members of an object and its closing brace. -/
def Document.renderMembers : List (String × Document) → List Char
  | [] => ['}']
  | (name, d) :: ms =>
    ',' :: (quoted name.toList ++ ':' :: (d.render ++ Document.renderMembers ms))

end

/-- The text of a document. -/
def Document.text (d : Document) : String := String.ofList d.render

end Interchange.Json
