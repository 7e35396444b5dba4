import Interchange.Json.Decoder
import Interchange.Server.MediaType
import Interchange.Text.Percent

/-!
# Requests

A request has a method, a target and perhaps a body. Its target may name a scheme and an
authority, which are passed over, and a fragment, which is cut off; what stays is split into the
segments of the path, which stay encoded, and the query.
-/

namespace Interchange

/-- What a request does to its target. -/
inductive Method where
  | get
  /-- As `get`, but only the status of the answer is of interest -/
  | head
  | put
  | post
  | other
deriving DecidableEq, Repr

/-- The method of a name. -/
def Method.ofName : String → Method
  | "GET" => .get
  | "HEAD" => .head
  | "PUT" => .put
  | "POST" => .post
  | _ => .other

/-- A request to the server. -/
structure Request where
  method : Method
  target : String
  contentType : Option String := none
  body : String := ""

namespace Request

/-- What stands behind the authority in a target such as `https://host:80/path`; a target that
starts with its path has no authority. -/
def behindAuthority (cs : List Char) : List Char :=
  match cs.dropWhile fun c => c ≠ ':' && c ≠ '/' with
  | ':' :: '/' :: '/' :: rest => rest.dropWhile fun c => c ≠ '/' && c ≠ '?' && c ≠ '#'
  | _ => cs

/-- The path and the query of the target. -/
def resource (r : Request) : List Char := (behindAuthority r.target.toList).takeWhile (· ≠ '#')

/-- The segments of the path behind its first slash. -/
def segments (r : Request) : List String :=
  match r.resource.takeWhile (· ≠ '?') with
  | '/' :: path => (path.splitOn '/').map String.ofList
  | _ => []

/-- The pairs of the query. -/
def query (r : Request) : List (Option String × Option String) :=
  Percent.formPairs ((r.resource.dropWhile (· ≠ '?')).drop 1)

/-- Whether the body is said to be JSON. -/
def hasJsonBody (r : Request) : Bool :=
  match r.contentType.bind MediaType.read? with
  | some m => m.isJson
  | none => false

end Request

end Interchange
