import Interchange.Update.Timetable

/-!
# The dispatcher

The dispatcher owns the live timetable and works off a queue of requests. It handles one
request at a time, in four steps: it prepares an answer on a copy of the published timetable,
publishes the copy if something in the batch succeeded, notes the result of the batch as the
latest one, and replies. A reset publishes another timetable and keeps the latest result.
-/

namespace Interchange

/-- Work for the dispatcher. -/
inductive UpdateRequest where
  /-- Apply a batch -/
  | apply (batch : List Mutation)
  /-- Replace the timetable -/
  | reset (timetable : Timetable)
deriving DecidableEq

/-- What the sender of a request gets back. -/
inductive UpdateReply where
  | applied (result : BatchResult)
  | resetDone
deriving DecidableEq

/-- The result of the batch that a reply is about. -/
def UpdateReply.result? : UpdateReply → Option BatchResult
  | .applied result => some result
  | .resetDone => none

/-- What the dispatcher has published. -/
structure Dispatcher where
  timetable : Timetable
  /-- The result of the last batch -/
  latest : Option BatchResult
deriving DecidableEq

namespace Dispatcher

/-- A dispatcher that has handled no request. -/
def start (timetable : Timetable) : Dispatcher := ⟨timetable, none⟩

/-! ### The steps of handling a request -/

/-- Works a request out at a moment: the timetable to publish, if any, and the reply. -/
def prepare (d : Dispatcher) (moment : Int) : UpdateRequest → Option Timetable × UpdateReply
  | .apply batch =>
    let (copy, result) := d.timetable.applyBatch batch moment
    (if 0 < result.successful then some copy else none, .applied result)
  | .reset timetable => (some timetable, .resetDone)

/-- Publishes a timetable, if there is one to publish. -/
def publish (d : Dispatcher) (next : Option Timetable) : Dispatcher :=
  { d with timetable := next.getD d.timetable }

/-- Notes the result that a reply is about as the latest. -/
def note (d : Dispatcher) (reply : UpdateReply) : Dispatcher :=
  { d with latest := reply.result? <|> d.latest }

/-! ### Handling requests -/

/-- Handles a request at a moment. -/
def handle (d : Dispatcher) (moment : Int) (r : UpdateRequest) : Dispatcher × UpdateReply :=
  let (next, reply) := d.prepare moment r
  ((d.publish next).note reply, reply)

/-- Applies a batch at a moment. -/
def applyBatch (d : Dispatcher) (batch : List Mutation) (moment : Int) : Dispatcher × BatchResult :=
  let (copy, result) := d.timetable.applyBatch batch moment
  (⟨if 0 < result.successful then copy else d.timetable, some result⟩, result)

/-- Publishes another timetable. -/
def reset (d : Dispatcher) (timetable : Timetable) : Dispatcher := { d with timetable }

theorem handle_apply (d : Dispatcher) (moment : Int) (batch : List Mutation) :
    d.handle moment (.apply batch) =
      ((d.applyBatch batch moment).1, .applied (d.applyBatch batch moment).2) := by
  simp only [handle, prepare, applyBatch, publish, note]
  split <;> rfl

theorem handle_reset (d : Dispatcher) (moment : Int) (timetable : Timetable) :
    d.handle moment (.reset timetable) = (d.reset timetable, .resetDone) := rfl

end Dispatcher

end Interchange
