import Interchange.Json.Token
import Interchange.Json.Value

/-!
# JSON texts as documents

A reader of JSON meets a text from front to back and may find a fault of content long before
the place where the text stops being JSON. So a text is read into a `Document` whatever it
holds: arrays and objects keep what was read of them and remember whether they were closed,
and where a value should stand and none does, the document is `broken` there. A member whose
name has no value is kept under the empty name as `unnamed`.

A document can also be read as a whole before anything is made of it. Its objects are mappings
then: they are known to the last member, and their members come in the order of their names.

`Document.ofTokens` reads one document and returns the tokens behind it.
`Document.collected` makes the objects of a document mappings.
-/

namespace Interchange.Json

/-- A JSON text, as far as it can be read. -/
inductive Document where
  | scalar (s : Scalar)
  | array (items : List Document) (closed : Bool)
  | object (members : List (String × Document)) (closed : Bool)
  /-- An object whose members are all known; their names ascend -/
  | mapping (members : List (String × Document))
  /-- The value of a member whose name has half of a surrogate pair -/
  | unnamed (d : Document)
  /-- The text breaks off where this value should stand -/
  | broken

/-! ### Reading -/

/-- An array or object that has been opened and not yet closed, its parts in reverse. -/
inductive Frame where
  | array (items : List Document)
  | object (members : List (String × Document))
  /-- An object of which the next member's name has been read -/
  | member (members : List (String × Document)) (name : Option String)

/-- The member with the given name, which may have no value. -/
def namedMember (d : Document) : Option String → String × Document
  | some name => (name, d)
  | none => ("", .unnamed d)

/-- A frame with the value put in that it waits for. -/
def Frame.fill (d : Document) : Frame → Frame
  | .array items => .array (d :: items)
  | .object members => .object members
  | .member members name => .object (namedMember d name :: members)

/-- What a frame holds when the text breaks off behind `d`. -/
def Frame.cut (d : Document) : Frame → Document
  | .array items => .array (d :: items).reverse false
  | .object members => .object members.reverse false
  | .member members name => .object (namedMember d name :: members).reverse false

/-- The document in which the text breaks off inside the given frames, innermost first. -/
def breakOff : List Frame → Document
  | [] => .broken
  | .array items :: frames => frames.foldl Frame.cut (.array items.reverse false)
  | .object members :: frames => frames.foldl Frame.cut (.object members.reverse false)
  | .member members name :: frames =>
    frames.foldl Frame.cut (.object (namedMember .broken name :: members).reverse false)

/-- What may come next. -/
inductive Expectation where
  /-- A value -/
  | value
  /-- A value, or the end of the array just opened -/
  | firstItem
  /-- A separator, or the end of the innermost frame -/
  | separator
  /-- The name of a member -/
  | name
  /-- The name of a member, or the end of the object just opened -/
  | firstName
  /-- The colon behind a name -/
  | colon

/-- Reads on inside the given frames. The second component is what follows the document. -/
def Document.readOn (frames : List Frame) : Expectation → List Token → Document × List Token
  | .value, .scalar s :: ts | .firstItem, .scalar s :: ts =>
    match frames with
    | [] => (.scalar s, ts)
    | frame :: frames => readOn (frame.fill (.scalar s) :: frames) .separator ts
  | .value, .openBracket :: ts | .firstItem, .openBracket :: ts =>
    readOn (.array [] :: frames) .firstItem ts
  | .value, .openBrace :: ts | .firstItem, .openBrace :: ts =>
    readOn (.object [] :: frames) .firstName ts
  | .firstItem, .closeBracket :: ts | .separator, .closeBracket :: ts =>
    match frames with
    | [.array items] => (.array items.reverse true, ts)
    | .array items :: frame :: frames =>
      readOn (frame.fill (.array items.reverse true) :: frames) .separator ts
    | frames => (breakOff frames, [])
  | .firstName, .closeBrace :: ts | .separator, .closeBrace :: ts =>
    match frames with
    | [.object members] => (.object members.reverse true, ts)
    | .object members :: frame :: frames =>
      readOn (frame.fill (.object members.reverse true) :: frames) .separator ts
    | frames => (breakOff frames, [])
  | .separator, .comma :: ts =>
    match frames with
    | .array _ :: _ => readOn frames .value ts
    | .object _ :: _ => readOn frames .name ts
    | frames => (breakOff frames, [])
  | .name, .scalar (.string s) :: ts | .firstName, .scalar (.string s) :: ts =>
    match frames with
    | .object members :: frames => readOn (.member members (some s) :: frames) .colon ts
    | frames => (breakOff frames, [])
  | .name, .scalar .unpaired :: ts | .firstName, .scalar .unpaired :: ts =>
    match frames with
    | .object members :: frames => readOn (.member members none :: frames) .colon ts
    | frames => (breakOff frames, [])
  | .colon, .colon :: ts => readOn frames .value ts
  | _, _ => (breakOff frames, [])

/-- The document that a list of tokens starts with, and the tokens behind it. -/
def Document.ofTokens (ts : List Token) : Document × List Token := readOn [] .value ts

/-- The document that a text starts with; what follows it is not looked at. -/
def Document.ofText (s : String) : Document := (ofTokens (tokens s.toList)).1

/-- The document that a text consists of, and whether nothing but blanks follows it. -/
def Document.ofWholeText (s : String) : Document × Bool :=
  let (d, rest) := ofTokens (tokens s.toList)
  (d, rest.isEmpty)

/-! ### Soundness -/

mutual

/-- Whether the text of the document is well formed throughout. -/
def Document.wellFormed : Document → Bool
  | .scalar _ => true
  | .array items closed => closed && Document.itemsWellFormed items
  | .object members closed => closed && Document.membersWellFormed members
  | .mapping members => Document.membersWellFormed members
  | .unnamed d => d.wellFormed
  | .broken => false

/-- Whether the texts of all items are well formed. -/
def Document.itemsWellFormed : List Document → Bool
  | [] => true
  | d :: ds => d.wellFormed && Document.itemsWellFormed ds

/-- Whether the texts of all members are well formed. -/
def Document.membersWellFormed : List (String × Document) → Bool
  | [] => true
  | (_, d) :: ms => d.wellFormed && Document.membersWellFormed ms

end

mutual

/-- Whether the document is well formed, every scalar in it has a value, and at most `depth`
brackets are open at once. -/
def Document.readable (depth : Nat) : Document → Bool
  | .scalar s => s.hasValue
  | .array items closed =>
    match depth with
    | 0 => false
    | depth + 1 => closed && Document.itemsReadable depth items
  | .object members closed =>
    match depth with
    | 0 => false
    | depth + 1 => closed && Document.membersReadable depth members
  | .mapping members =>
    match depth with
    | 0 => false
    | depth + 1 => Document.membersReadable depth members
  | .unnamed _ => false
  | .broken => false

/-- Whether all items are readable. -/
def Document.itemsReadable (depth : Nat) : List Document → Bool
  | [] => true
  | d :: ds => d.readable depth && Document.itemsReadable depth ds

/-- Whether all members are readable. -/
def Document.membersReadable (depth : Nat) : List (String × Document) → Bool
  | [] => true
  | (_, d) :: ms => d.readable depth && Document.membersReadable depth ms

end

/-! ### Mappings -/

/-- Puts a member into a list that ascends by name, in place of one of the same name. -/
def putMember (name : String) (d : Document) :
    List (String × Document) → List (String × Document)
  | [] => [(name, d)]
  | (name', d') :: ms =>
    if name < name' then (name, d) :: (name', d') :: ms
    else if name = name' then (name, d) :: ms
    else (name', d') :: putMember name d ms

mutual

/-- The document with a mapping in place of every object; of members with the same name the
last one stays. -/
def Document.collected : Document → Document
  | .scalar s => .scalar s
  | .array items closed => .array (Document.collectedItems items) closed
  | .object members _ | .mapping members => .mapping (Document.collectedMembers [] members)
  | .unnamed d => .unnamed d.collected
  | .broken => .broken

/-- All items, with mappings for their objects. -/
def Document.collectedItems : List Document → List Document
  | [] => []
  | d :: ds => d.collected :: Document.collectedItems ds

/-- Puts all members, with mappings for their objects, into a sorted list. -/
def Document.collectedMembers (done : List (String × Document)) :
    List (String × Document) → List (String × Document)
  | [] => done
  | (name, d) :: ms => Document.collectedMembers (putMember name d.collected done) ms

end

/-! ### Values as documents -/

mutual

/-- The document that the text of a value is read into. -/
def Value.toDocument : Value → Document
  | .null => .scalar .null
  | .bool b => .scalar (.bool b)
  | .integer n => .scalar (.number (.integer n))
  | .string s => .scalar (.string s)
  | .array items => .array (Value.toDocuments items) true
  | .object members => .object (Value.toMembers members) true

/-- The documents of the items of an array. -/
def Value.toDocuments : List Value → List Document
  | [] => []
  | v :: vs => v.toDocument :: Value.toDocuments vs

/-- The documents of the members of an object. -/
def Value.toMembers : List (String × Value) → List (String × Document)
  | [] => []
  | (k, v) :: ms => (k, v.toDocument) :: Value.toMembers ms

end

end Interchange.Json
