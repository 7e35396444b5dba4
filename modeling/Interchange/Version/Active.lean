import Interchange.SortedMap
import Interchange.Version.Tag
import Interchange.Version.Window

/-!
# Active versions

Several versions of one entity may arrive from overlapping feeds. At any moment the versions
valid then compete, and the latest of them is active. `activeSet` groups versions by the
identity they share and keeps the active one of each.
-/

namespace Interchange

/-- A version of an entity: its tag, when it applies, and what it says. -/
structure Versioned (α : Type) where
  tag : VersionTag
  validity : List Window := []
  value : α
deriving DecidableEq

/-- The resolved version. -/
def Versioned.version (e : Versioned α) : Int := e.tag.resolve

/-- The version that is active among the versions of one entity. -/
def selectActive (versions : List (Versioned α)) (t : DateTime) : Option (Versioned α) :=
  latestBy Versioned.version (versions.filter fun e => isValidAt e.validity t)

/-- The entities by their keys, in the order in which they come. -/
def groupByKey {κ : Type} [Ord κ] [Std.TransOrd κ] [Std.LawfulEqOrd κ] (key : α → κ)
    (as : List α) : SortedMap κ (List α) :=
  as.foldl (fun groups a => groups.upsert (key a) [] (· ++ [a])) .empty

/-- The active version of every entity that has one, by key. -/
def activeSet {κ : Type} [Ord κ] [Std.TransOrd κ] [Std.LawfulEqOrd κ] (key : Versioned α → κ)
    (versions : List (Versioned α)) (t : DateTime) : SortedMap κ (Versioned α) :=
  (groupByKey key versions).entries.foldl (fun active (k, group) =>
    match selectActive group t with
    | some e => active.insert k e
    | none => active) .empty

end Interchange
