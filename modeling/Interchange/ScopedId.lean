/-!
# Feed-scoped ids

Two feeds may both have a trip `1234`; the feed keeps them apart. A `ScopedId` is written
`FEED:ID` and read back by splitting at the first colon, so the feed has none and the id
inside the feed may have any number. Neither part is empty.

Ids are ordered by feed and then by the id inside the feed, both by code points.
-/

namespace Interchange

/-- The identity of something within a feed. -/
structure ScopedId where
  feed : String
  localId : String
  valid : feed ≠ "" ∧ ':' ∉ feed.toList ∧ localId ≠ ""
deriving DecidableEq

/-- Why a text or a pair of texts is no id. -/
inductive ScopedIdError where
  | noSeparator
  | emptyFeed
  | separatorInFeed
  | emptyLocalId
deriving DecidableEq, Repr

/-- The wording of a refusal. -/
def ScopedIdError.message (e : ScopedIdError) : String :=
  "invalid feed-scoped id: " ++ match e with
    | .noSeparator => "expected FEED:ID"
    | .emptyFeed => "feed id cannot be empty"
    | .separatorInFeed => "feed id cannot contain ':'"
    | .emptyLocalId => "id cannot be empty"

namespace ScopedId

/-! ### Making and reading ids -/

/-- The id of the given parts, or what is wrong with them. -/
def make (feed localId : String) : Except ScopedIdError ScopedId :=
  if h : feed = "" then .error .emptyFeed
  else if h' : ':' ∈ feed.toList then .error .separatorInFeed
  else if h'' : localId = "" then .error .emptyLocalId
  else .ok ⟨feed, localId, h, h', h''⟩

/-- The parts of a text before and after its first colon. -/
def cutAtColon (cs : List Char) : Option (List Char × List Char) :=
  match cs.dropWhile (· ≠ ':') with
  | [] => none
  | _ :: rest => some (cs.takeWhile (· ≠ ':'), rest)

/-- Reads the form `FEED:ID`. -/
def parse (s : String) : Except ScopedIdError ScopedId :=
  match cutAtColon s.toList with
  | none => .error .noSeparator
  | some (feed, localId) => make (String.ofList feed) (String.ofList localId)

/-- Writes the form `FEED:ID`. -/
def text (id : ScopedId) : String := id.feed ++ ":" ++ id.localId

/-- The form shown to developers. -/
def debugText (id : ScopedId) : String := "FeedScopedId(" ++ id.text ++ ")"

@[simp] theorem make_parts (id : ScopedId) : make id.feed id.localId = .ok id := by
  obtain ⟨_, _, hf, hc, hl⟩ := id
  simp only [make, dif_neg hf, dif_neg hc, dif_neg hl]

/-! ### Order -/

instance : Ord ScopedId :=
  ⟨compareLex (compareOn ScopedId.feed) (compareOn ScopedId.localId)⟩

instance : Std.TransOrd ScopedId :=
  inferInstanceAs (Std.TransCmp (compareLex (compareOn ScopedId.feed) (compareOn ScopedId.localId)))

instance : Std.LawfulEqOrd ScopedId where
  compare_self := @Std.ReflCmp.compare_self ScopedId compare _
  eq_of_compare {a b} h := by
    have h : (compare a.feed b.feed).then (compare a.localId b.localId) = .eq := h
    rw [Ordering.then_eq_eq] at h
    obtain ⟨f, l, v⟩ := a
    obtain ⟨f', l', v'⟩ := b
    have hf := Std.LawfulEqCmp.eq_of_compare h.1
    have hl := Std.LawfulEqCmp.eq_of_compare h.2
    simp only at hf hl
    subst hf hl
    rfl

end ScopedId

end Interchange
