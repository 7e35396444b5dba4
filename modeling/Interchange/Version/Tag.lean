import Interchange.Text.Decimal
import Interchange.Width

/-!
# Version tags

Feeds tag the versions of an entity with free text. Every tag has a resolved version, an
integer, so that any two tags can be compared: `any` stands for an unknown version below all
real ones, a tag that is an integer of 32 bits stands for that integer, and of any other tag
the first digits count.

The latest of several entities is the first one with the greatest resolved version.
-/

namespace Interchange

/-- The tag of a version, as the feed gives it. -/
structure VersionTag where
  text : String
deriving DecidableEq

namespace VersionTag

/-! ### Resolving -/

/-- The tag of an unknown version. -/
def any : VersionTag := ⟨"any"⟩

/-- What an unknown version resolves to. -/
def unknownVersion : Int := -1

/-- How many digits are kept of a tag that is no integer. -/
def keptDigits : Nat := 8

/-- An integer literal of 32 bits. -/
def literal? (cs : List Char) : Option Int :=
  match Decimal.integer? cs with
  | some n => if minShort ≤ n ∧ n ≤ maxShort then some n else none
  | none => none

/-- The number that the first digits of a text make, whatever stands between them. -/
def salvage (cs : List Char) : Nat := Decimal.value ((cs.filter Char.isDigit).take keptDigits)

/-- The version that a tag stands for. -/
def resolve (tag : VersionTag) : Int :=
  if tag = any then unknownVersion
  else match literal? tag.text.toList with
    | some n => n
    | none => salvage tag.text.toList

end VersionTag

/-! ### The latest of several -/

/-- The greatest of the versions, or the unknown version if there is none. -/
def latestVersion (versions : List Int) : Int :=
  match versions with
  | [] => VersionTag.unknownVersion
  | v :: vs => vs.foldl max v

/-- The first entity with the greatest version, where `best` has been met before. -/
def latestFrom (version : α → Int) (best : α) : List α → α
  | [] => best
  | a :: as => latestFrom version (if version a ≤ version best then best else a) as

/-- The first entity with the greatest version. -/
def latestBy (version : α → Int) : List α → Option α
  | [] => none
  | a :: as => some (latestFrom version a as)

/-- The entities in ascending order of version; equal versions keep their order. -/
def sortByVersion (version : α → Int) (as : List α) : List α :=
  as.mergeSort fun a b => version a ≤ version b

end Interchange
