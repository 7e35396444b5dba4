import Interchange.Server.Request
import Interchange.Server.Response
import Interchange.Width

/-!
# What a request asks for

A request is read in three steps: its path names a `Resource`, the resource says which methods
it has, and the parameters and the body make a `Command`. A request that fails at one of the
steps is refused.
-/

namespace Interchange

open Json

/-- What a path names, with its parameters still encoded. -/
inductive Resource where
  | health
  | network
  | summary
  | stopTransfers (index : String)
  | trip (id : String)
  | tripBoarding (id : String)
  | updates
  | latestUpdate
deriving DecidableEq, Repr

namespace Resource

/-- The resource with the given path. A path that ends in a slash names nothing, so a parameter
at the end is not empty; elsewhere it may be. -/
def ofPath : List String → Option Resource
  | ["health"] => some .health
  | ["network"] => some .network
  | ["network", "summary"] => some .summary
  | ["stops", index, "transfers"] => some (.stopTransfers index)
  | ["trips", id] => if id = "" then none else some (.trip id)
  | ["trips", id, "boarding"] => some (.tripBoarding id)
  | ["updates"] => some .updates
  | ["updates", "latest"] => some .latestUpdate
  | _ => none

/-- Whether the resource has a method. -/
def allows : Resource → Method → Bool
  | .network, m => m = .put
  | .updates, m => m = .post
  | _, m => m = .get ∨ m = .head

end Resource

/-- What a request asks for. -/
inductive Command where
  | health
  | summary
  | transfers (index : Nat) (direction : SearchDirection)
  | trip (id : String)
  | boarding (id : String) (position : Nat) (alight : ServiceTime)
  | latestUpdate
  | replaceNetwork (d : Description)
  | update (batch : List Mutation)

/-! ### Parameters -/

/-- A count that fits 64 bits: digits, perhaps with a plus sign in front. -/
def readCount (s : String) : Option Nat :=
  let digits := match s.toList with
    | '+' :: cs => cs
    | cs => cs
  match Decimal.natural? digits with
  | some n => if n < countLimit then some n else none
  | none => none

/-- A parameter of the path. -/
def pathParameter (f : String → Option α) (s : String) : Except Refusal α :=
  match (Percent.decode? s).bind f with
  | some a => .ok a
  | none => .error .badParameter

/-- A parameter of the query, which may be given once; other names are passed over. -/
def queryParameter (name : String) (f : String → Option α)
    (pairs : List (Option String × Option String)) : Except Refusal (Option α) :=
  match pairs.filter fun pair => pair.1 = some name with
  | [] => .ok none
  | [(_, value)] =>
    match value.bind f with
    | some a => .ok (some a)
    | none => .error .badParameter
  | _ => .error .badParameter

/-- A parameter of the query that has to be given. -/
def neededParameter (name : String) (f : String → Option α)
    (pairs : List (Option String × Option String)) : Except Refusal α := do
  match ← queryParameter name f pairs with
  | some a => return a
  | none => throw .badParameter

/-- The direction of a name. -/
def readDirection (s : String) : Option SearchDirection :=
  [SearchDirection.forward, .reverse].find? fun d => d.name = s

/-! ### Bodies -/

/-- Bodies with more bytes are not read. -/
def bodyLimit : Nat := 2097152

/-- A body in JSON; what follows the document is not looked at. -/
def readBody (f : Decoder α) (r : Request) : Except Refusal α :=
  if !r.hasJsonBody then .error .wrongMediaType
  else if bodyLimit < r.body.utf8ByteSize then .error .tooLarge
  else match f (Document.ofText r.body) with
    | .ok a => .ok a
    | .error .malformed => .error .malformedBody
    | .error _ => .error .unacceptableBody

/-! ### Commands -/

/-- What a request asks of a resource. -/
def Resource.command (r : Request) : Resource → Except Refusal Command
  | .health => return .health
  | .summary => return .summary
  | .latestUpdate => return .latestUpdate
  | .network => .replaceNetwork <$> readBody Description.ofJson r
  | .updates => .update <$> readBody (decodeList Mutation.ofJson) r
  | .stopTransfers index => do
    let index ← pathParameter readCount index
    let direction ← queryParameter "direction" readDirection r.query
    return .transfers index (direction.getD .forward)
  | .trip id => .trip <$> pathParameter some id
  | .tripBoarding id => do
    let id ← pathParameter some id
    let position ← neededParameter "stop_pos" readCount r.query
    let alight ← neededParameter "alight" (fun s => (ServiceTime.parse s).toOption) r.query
    return .boarding id position alight

/-- What a request asks for. -/
def Command.ofRequest (r : Request) : Except Refusal Command :=
  match Resource.ofPath r.segments with
  | none => .error .unknownPath
  | some resource =>
    if resource.allows r.method then resource.command r else .error .wrongMethod

end Interchange
