import Interchange.Json.Document
import Interchange.Width

/-!
# Decoding documents

A `Decoder α` makes a value of `α` from a document or says what is wrong with it. Faults are
reported in the order in which a reader meets them: the first fault in the text wins, and a
missing member is noticed at the end of its object, after everything else in it.

Records are described by `Fields α`, an applicative list of named fields. One description
serves both forms of a record: an object, whose members may come in any order, and an array
with the fields in the order of their declaration, where trailing fields with a default may
be left out.
-/

namespace Interchange.Json

/-! ### Faults -/

/-- What is wrong with a document. -/
inductive DecodeError where
  /-- The text is not JSON at the place where the reader stands -/
  | malformed
  /-- The document is JSON, but not of the form asked for -/
  | wrongShape
  | missingField (name : String)
  | duplicateField (name : String)
  | unknownVariant (name : String) (expected : List String)
  /-- A text of the right form that its type refuses -/
  | refused (reason : String)
deriving DecidableEq, Repr

private def named (s : String) : String := "`" ++ s ++ "`"

/-- The names that a variant may have, in words. -/
def alternatives : List String → String
  | [] => "there are no variants"
  | [a] => "expected " ++ named a
  | [a, b] => "expected " ++ named a ++ " or " ++ named b
  | as => "expected one of " ++ String.intercalate ", " (as.map named)

/-- The message for a fault, where it has a fixed one. -/
def DecodeError.message? : DecodeError → Option String
  | .malformed | .wrongShape => none
  | .missingField name => some ("missing field " ++ named name)
  | .duplicateField name => some ("duplicate field " ++ named name)
  | .unknownVariant name expected =>
    some ("unknown variant " ++ named name ++ ", " ++ alternatives expected)
  | .refused reason => some reason

/-- Makes a value from a document. -/
abbrev Decoder (α : Type) := Document → Except DecodeError α

/-- The fault when a scalar stands where something else is asked for: one without a value
cannot even be read. -/
def Scalar.mismatch (s : Scalar) : DecodeError := if s.hasValue then .wrongShape else .malformed

/-- The fault when a document has not the form asked for. -/
def Document.mismatch : Document → DecodeError
  | .scalar s => s.mismatch
  | .array _ _ | .object _ _ | .mapping _ => .wrongShape
  | .unnamed _ | .broken => .malformed

/-! ### Scalars -/

/-- A truth value. -/
def decodeBool : Decoder Bool
  | .scalar (.bool b) => .ok b
  | d => .error d.mismatch

/-- A string. -/
def decodeString : Decoder String
  | .scalar (.string s) => .ok s
  | d => .error d.mismatch

/-- An integer literal from `lo` to `hi`. -/
def decodeInteger (lo hi : Int) : Decoder Int
  | .scalar (.number (.integer n)) => if lo ≤ n ∧ n ≤ hi then .ok n else .error .wrongShape
  | d => .error d.mismatch

/-- A count that fits 64 bits. -/
def decodeCount : Decoder Nat
  | .scalar (.number (.integer n)) =>
    if 0 ≤ n ∧ n < countLimit then .ok n.toNat else .error .wrongShape
  | d => .error d.mismatch

/-- A count that fits 32 bits. -/
def decodeShortCount : Decoder Nat
  | .scalar (.number (.integer n)) =>
    if 0 ≤ n ∧ n < shortCountLimit then .ok n.toNat else .error .wrongShape
  | d => .error d.mismatch

/-- A signed integer that fits 32 bits. -/
def decodeShortInteger : Decoder Int := decodeInteger minShort maxShort

/-- A number, rounded to a double. -/
def decodeDouble : Decoder Float
  | .scalar (.number n) => .ok n.toFloat
  | d => .error d.mismatch

/-- A string that `f` reads or refuses. -/
def decodeText (f : String → Except DecodeError α) : Decoder α := fun d => do
  f (← decodeString d)

/-! ### Compounds -/

/-- Null, or a value. -/
def decodeNullable (f : Decoder α) : Decoder (Option α)
  | .scalar .null => .ok none
  | d => some <$> f d

/-- An array of any length. -/
def decodeList (f : Decoder α) : Decoder (List α)
  | .array items closed => do
    let as ← items.mapM f
    if closed then .ok as else .error .malformed
  | d => .error d.mismatch

/-- The variant of a name. -/
def variantNamed (variants : List (String × α)) (name : String) : Except DecodeError α :=
  match variants.find? (·.1 = name) with
  | some (_, a) => .ok a
  | none => .error (.unknownVariant name (variants.map Prod.fst))

/-- One of several variants: its name, or an object whose only member has that name and the
value null. A mapping is known to have one member before its name is looked at; in an object
the name is read first. -/
def decodeVariant (variants : List (String × α)) : Decoder α
  | .scalar (.string s) => variantNamed variants s
  | .mapping [(name, d)] => do
    let a ← variantNamed variants name
    match d with
    | .scalar .null => .ok a
    | d => .error d.mismatch
  | .mapping _ => .error .wrongShape
  | .object ((_, .unnamed _) :: _) _ => .error .malformed
  | .object ((name, d) :: more) closed => do
    let a ← variantNamed variants name
    match d with
    | .scalar .null => if more.isEmpty && closed then .ok a else .error .malformed
    | d => .error d.mismatch
  | _ => .error .malformed

/-! ### Records -/

/-- A fault and the index of the member that shows it. -/
structure Fault where
  position : Nat
  cause : DecodeError

/-- The fields of a record, in the order of their declaration. -/
structure Fields (α : Type) where
  names : List String
  /-- Reads the fields from the members of an object -/
  ofMembers : List (String × Document) → Except Fault α
  /-- Reads the fields from the front of an array and returns the items left; the flag says
  whether the array was closed -/
  ofItems : Bool → List Document → Except DecodeError (α × List Document)

/-- The earlier of two faults wins; of two at one place, the first. -/
def firstFault (f : Except Fault (α → β)) (a : Except Fault α) : Except Fault β :=
  match f, a with
  | .ok f, .ok a => .ok (f a)
  | .error e, .ok _ => .error e
  | .ok _, .error e => .error e
  | .error e, .error e' => if e'.position < e.position then .error e' else .error e

instance : Pure Fields where
  pure a := ⟨[], fun _ => .ok a, fun _ items => .ok (a, items)⟩

instance : Seq Fields where
  seq f a :=
    let a := a ()
    { names := f.names ++ a.names
      ofMembers := fun members => firstFault (f.ofMembers members) (a.ofMembers members)
      ofItems := fun closed items => do
        let (g, items) ← f.ofItems closed items
        let (x, items) ← a.ofItems closed items
        return (g x, items) }

instance : Functor Fields where
  map f a :=
    { names := a.names
      ofMembers := fun members => (a.ofMembers members).map f
      ofItems := fun closed items => (a.ofItems closed items).map fun (x, rest) => (f x, rest) }

/-- The members of the given name, with their indices. -/
def occurrences (name : String) (members : List (String × Document)) : List (Nat × Document) :=
  members.zipIdx.filterMap fun ((name', d), i) => if name' = name then some (i, d) else none

/-- A field of an object: the only member of its name, or what stands for it if there is none. -/
def fieldOf (name : String) (f : Decoder α) (absent : Nat → Except Fault α)
    (members : List (String × Document)) : Except Fault α :=
  match occurrences name members with
  | [] => absent members.length
  | (i, d) :: more =>
    match f d, more with
    | .error e, _ => .error ⟨i, e⟩
    | .ok _, (j, _) :: _ => .error ⟨j, .duplicateField name⟩
    | .ok a, [] => .ok a

/-- A field is the default of an absent one, or is made by its decoder. -/
private theorem of_fieldOf {name : String} {f : Decoder α} {absent : Nat → Except Fault α}
    {members : List (String × Document)} {a : α} (h : fieldOf name f absent members = .ok a) :
    absent members.length = .ok a ∨ ∃ d, f d = .ok a := by
  unfold fieldOf at h
  cases hoccurrences : occurrences name members with
  | nil =>
    rw [hoccurrences] at h
    exact .inl h
  | cons occurrence more =>
    rw [hoccurrences] at h
    cases hd : f occurrence.2 with
    | error e => simp [hd] at h
    | ok a' =>
      cases more with
      | cons => simp [hd] at h
      | nil =>
        obtain rfl : a' = a := by simpa [hd] using h
        exact .inr ⟨occurrence.2, hd⟩

/-- A field that has to be there. -/
def required (name : String) (f : Decoder α) : Fields α where
  names := [name]
  ofMembers := fieldOf name f fun n => .error ⟨n + 1, .missingField name⟩
  ofItems closed
    | [] => .error (if closed then .wrongShape else .malformed)
    | d :: items => (f d).map (·, items)

/-- A field that has to be there is made by its decoder. -/
theorem exists_of_required {name : String} {f : Decoder α} {members : List (String × Document)}
    {a : α} (h : (required name f).ofMembers members = .ok a) : ∃ d, f d = .ok a := by
  simp only [required] at h
  rcases of_fieldOf h with h | h
  · cases h
  · exact h

/-- A field that may be left out, and is `a` then. -/
def optional (name : String) (f : Decoder α) (a : α) : Fields α where
  names := [name]
  ofMembers := fieldOf name f fun _ => .ok a
  ofItems closed
    | [] => if closed then .ok (a, []) else .error .malformed
    | d :: items => (f d).map (·, items)

/-- A field that may be absent has its default or is made by its decoder. -/
theorem eq_or_exists_of_optional {name : String} {f : Decoder α} {default a : α}
    {members : List (String × Document)}
    (h : (optional name f default).ofMembers members = .ok a) : a = default ∨ ∃ d, f d = .ok a := by
  simp only [optional] at h
  rcases of_fieldOf h with h | h
  · exact .inl (Except.ok.inj h).symm
  · exact .inr h

/-- Whether an unknown member with this value can be passed over. -/
def skippable : Document → Bool
  | .unnamed _ => false
  | d => d.wellFormed

/-- What is wrong with an object beside its known members: the first unknown member that is
not JSON, or else a missing brace. -/
def strayFault (names : List String) (members : List (String × Document)) (closed : Bool) :
    Except Fault Unit :=
  let strays := members.zipIdx.filter fun ((name, d), _) =>
    !names.contains name && !skippable d
  match strays, closed with
  | (_, i) :: _, _ => .error ⟨i, .malformed⟩
  | [], true => .ok ()
  | [], false => .error ⟨members.length, .malformed⟩

/-- A record as an object with the given members. -/
def Fields.ofObject (r : Fields α) (members : List (String × Document)) (closed : Bool) :
    Except DecodeError α :=
  match firstFault ((fun _ a => a) <$> strayFault r.names members closed) (r.ofMembers members) with
  | .ok a => .ok a
  | .error fault => .error fault.cause

/-- A record, in either of its forms. -/
def Fields.decode (r : Fields α) : Decoder α
  | .object members closed => r.ofObject members closed
  | .mapping members => r.ofObject members true
  | .array items closed => do
    let (a, rest) ← r.ofItems closed items
    if rest.isEmpty && closed then .ok a else .error .malformed
  | d => .error d.mismatch

/-! ### Texts -/

/-- Makes a value from a text that is one document, with nothing but blanks around it. -/
def decodeWholeText (f : Decoder α) (s : String) : Except DecodeError α := do
  let (d, complete) := Document.ofWholeText s
  let a ← f d
  if complete then .ok a else .error .malformed

end Interchange.Json
