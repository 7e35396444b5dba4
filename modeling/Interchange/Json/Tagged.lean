import Interchange.Json.Decoder

/-!
# Tagged records

Where a document may be one of several records, one member says which: its tag. The tag may
stand anywhere among the members, so the members before it are put aside until it is known;
members put aside are read completely, and so have to be well formed throughout. As an array,
the record has its tag as first item.
-/

namespace Interchange.Json

/-- How many brackets may be open at once inside a value that is put aside. -/
def asideDepth : Nat := 125

/-- A value that is put aside. -/
def putAside (d : Document) : Except DecodeError Document :=
  if d.readable asideDepth then .ok d else .error .malformed

/-- Reads the tag from the members of an object and puts the others aside. -/
def separateTag (tag : String) (f : Decoder α) (found : Option α) :
    List (String × Document) → Except DecodeError (Option α × List (String × Document))
  | [] => .ok (found, [])
  | (name, d) :: ms =>
    if name = tag then
      match found with
      | some _ => .error (.duplicateField tag)
      | none => do
        let a ← f d
        separateTag tag f (some a) ms
    else do
      let d ← putAside d
      let (found, ms) ← separateTag tag f found ms
      return (found, (name, d) :: ms)

/-- The variant that a tag names. -/
def decodeTag (variants : List (String × α)) : Decoder α := fun d => do
  let name ← decodeString d
  match variants.find? (·.1 = name) with
  | some (_, a) => return a
  | none => throw (.unknownVariant name (variants.map Prod.fst))

/-- What was put aside has been read before, so nothing in it is malformed. -/
def readAside : DecodeError → DecodeError
  | .malformed => .wrongShape
  | e => e

/-- A tagged record as an object with the given members. -/
def taggedOfObject (tag : String) (variants : List (String × Fields α))
    (members : List (String × Document)) (closed : Bool) : Except DecodeError α := do
  let (variant, members) ← separateTag tag (decodeTag variants) none members
  if !closed then throw .malformed
  match variant with
  | none => throw (.missingField tag)
  | some fields => (fields.ofObject members true).mapError readAside

/-- A record whose member `tag` says which of the variants it is. -/
def decodeTagged (tag : String) (variants : List (String × Fields α)) : Decoder α
  | .object members closed => taggedOfObject tag variants members closed
  | .mapping members => taggedOfObject tag variants members true
  | .array [] closed => throw (if closed then .missingField tag else .malformed)
  | .array (d :: items) closed => do
    let fields ← decodeTag variants d
    let items ← items.mapM putAside
    if !closed then throw .malformed
    (fields.decode (.array items true)).mapError readAside
  | d => throw d.mismatch

end Interchange.Json
