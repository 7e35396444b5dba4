/-!
# Media types

A content type is `type/subtype`, where the subtype may end in `+suffix`, and perhaps
parameters behind semicolons. `MediaType.read?` reads one, and `MediaType.isJson` says whether
it stands for JSON text.
-/

namespace Interchange

/-- A media type without its parameters, in lower case. -/
structure MediaType where
  type : List Char
  subtype : List Char
  suffix : Option (List Char)
deriving DecidableEq

namespace MediaType

/-- Whether a character may stand in a token: ASCII letters, digits and some signs. -/
def isTokenChar (c : Char) : Bool :=
  c.isAlphanum || "!#$%&'*+-.^_`|~".toList.contains c

/-- Whether a character may stand between quotes: the printable ASCII characters and the
blank, among them the backslash, which escapes nothing. -/
def isQuotedChar (c : Char) : Bool := 32 ≤ c.toNat && c.toNat < 127

/-- Skips a quoted value whose opening quote has been read. The value is not empty, so a quote
right behind the opening one belongs to it, and the next quote closes it; behind that only
blanks may stand before the next semicolon. The result is what follows that semicolon. -/
def skipQuoted : List Char → Option (List Char)
  | [] => none
  | c :: cs =>
    match (c :: cs.takeWhile (· ≠ '"')).all isQuotedChar, cs.dropWhile (· ≠ '"') with
    | true, _ :: rest =>
      match rest.dropWhile (· = ' ') with
      | [] => some []
      | ';' :: rest => some rest
      | _ => none
    | _, _ => none

/-- What follows a parameter: a name, an equals sign, and a token or quoted value. -/
def skipParameter (cs : List Char) : Option (List Char) :=
  match cs.span isTokenChar with
  | (_ :: _, '=' :: '"' :: rest) => skipQuoted rest
  | (_ :: _, '=' :: rest) =>
    match rest.span isTokenChar with
    | (_, []) => some []
    | (_ :: _, ';' :: rest) => some rest
    | _ => none
  | _ => none

/-- Whether a text consists of parameters; `fuel` bounds their number. -/
def isParameters : Nat → List Char → Bool
  | 0, _ => false
  | fuel + 1, cs =>
    match cs.dropWhile (· = ' ') with
    | [] => true
    | cs =>
      match skipParameter cs with
      | none => false
      | some rest => isParameters fuel rest

/-- Splits a subtype at its last plus sign, unless that is its first character. -/
def splitSuffix (subtype : List Char) : List Char × Option (List Char) :=
  let suffix := (subtype.reverse.takeWhile (· ≠ '+')).reverse
  let front := subtype.take (subtype.length - suffix.length - 1)
  if front = [] then (subtype, none) else (front, some suffix)

/-- Reads a content type. -/
def read? (s : String) : Option MediaType :=
  match s.toList.span isTokenChar with
  | (type@(_ :: _), '/' :: rest) =>
    match rest.span isTokenChar with
    | (subtype, parameters) =>
      let valid := match parameters with
        | [] => true
        | ';' :: cs => subtype ≠ [] && isParameters (cs.length + 1) cs
        | _ => false
      if valid then
        let (subtype, suffix) := splitSuffix (subtype.map Char.toLower)
        some ⟨type.map Char.toLower, subtype, suffix⟩
      else none
  | _ => none

/-- Whether the type stands for JSON text: `application/json`, or any application type with
the suffix `json`. -/
def isJson (m : MediaType) : Bool :=
  m.type = "application".toList &&
    (m.subtype = "json".toList || m.suffix = some "json".toList)

end MediaType

end Interchange
