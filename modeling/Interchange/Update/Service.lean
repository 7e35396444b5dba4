import Interchange.Update.Dispatcher

/-!
# The update service

Clients reach the dispatcher through channels only. They put requests into a queue, first in,
first out, and wait for the reply, which comes to the caller of that request and nobody else.
What the dispatcher has published they read at any time, without waiting.

`UpdateService.Step` is one atomic step of a client or of the dispatcher, and
`UpdateService.Run` any interleaving of such steps. The dispatcher takes four steps for each
request: it takes the request off the queue and works it out on a copy, publishes the copy,
notes the result and replies.
-/

namespace Interchange

/-- A call that waits for the reply to its request. -/
structure Ticket where
  client : Nat
  /-- The number of requests that were put into the queue before -/
  number : Nat
deriving DecidableEq

/-- How far the dispatcher is with a request. -/
inductive Stage where
  /-- It waits for a request -/
  | idle
  /-- It has worked out what to publish, if anything, and what to reply -/
  | prepared (ticket : Ticket) (next : Option Timetable) (reply : UpdateReply)
  | published (ticket : Ticket) (reply : UpdateReply)
  | noted (ticket : Ticket) (reply : UpdateReply)

/-- The dispatcher with its channels. -/
structure UpdateService where
  dispatcher : Dispatcher
  /-- How many requests may wait -/
  capacity : Nat
  /-- How many requests have been put into the queue -/
  sent : Nat := 0
  queue : List (Ticket × UpdateRequest) := []
  stage : Stage := .idle
  /-- The replies that have not been picked up -/
  replies : List (Ticket × UpdateReply) := []

/-- What can be seen of a step. -/
inductive ServiceEvent where
  /-- A client puts a request into the queue -/
  | sent (client : Nat) (request : UpdateRequest)
  /-- The dispatcher takes the next request, with the moment on its clock -/
  | taken (moment : Int)
  /-- The dispatcher publishes a timetable, or has none to publish -/
  | published
  /-- The dispatcher notes the result of a batch, or has none to note -/
  | noted
  | replied
  /-- A call returns to its client -/
  | returned (ticket : Ticket) (reply : UpdateReply)
  /-- A client reads the published timetable -/
  | sawTimetable (client : Nat) (timetable : Timetable)
  /-- A client reads the latest result -/
  | sawLatest (client : Nat) (result : Option BatchResult)
deriving DecidableEq

namespace UpdateService

/-- The service before the first request. At least one request may wait. -/
def start (timetable : Timetable) (buffer : Nat) : UpdateService where
  dispatcher := .start timetable
  capacity := max buffer 1

/-- **Atomic steps.** `Step s e s'` says that the service can go from `s` to `s'` in a step
seen as `e`. -/
inductive Step (s : UpdateService) : ServiceEvent → UpdateService → Prop
  | sent (client : Nat) (request : UpdateRequest) (room : s.queue.length < s.capacity) :
      Step s (.sent client request)
        { s with sent := s.sent + 1, queue := s.queue ++ [(⟨client, s.sent⟩, request)] }
  | taken (moment : Int) {ticket : Ticket} {request : UpdateRequest}
      {rest : List (Ticket × UpdateRequest)} (idle : s.stage = .idle)
      (head : s.queue = (ticket, request) :: rest) :
      Step s (.taken moment)
        { s with
          queue := rest
          stage := .prepared ticket (s.dispatcher.prepare moment request).1
            (s.dispatcher.prepare moment request).2 }
  | published {ticket : Ticket} {next : Option Timetable} {reply : UpdateReply}
      (prepared : s.stage = .prepared ticket next reply) :
      Step s .published
        { s with dispatcher := s.dispatcher.publish next, stage := .published ticket reply }
  | noted {ticket : Ticket} {reply : UpdateReply} (published : s.stage = .published ticket reply) :
      Step s .noted { s with dispatcher := s.dispatcher.note reply, stage := .noted ticket reply }
  | replied {ticket : Ticket} {reply : UpdateReply} (noted : s.stage = .noted ticket reply) :
      Step s .replied { s with stage := .idle, replies := s.replies ++ [(ticket, reply)] }
  | returned {ticket : Ticket} {reply : UpdateReply} (arrived : (ticket, reply) ∈ s.replies) :
      Step s (.returned ticket reply) { s with replies := s.replies.erase (ticket, reply) }
  | sawTimetable (client : Nat) : Step s (.sawTimetable client s.dispatcher.timetable) s
  | sawLatest (client : Nat) : Step s (.sawLatest client s.dispatcher.latest) s

/-- **Runs.** Steps of clients and dispatcher in any order, with what is seen of them. -/
inductive Run (s₀ : UpdateService) : List ServiceEvent → UpdateService → Prop
  | nil : Run s₀ [] s₀
  | concat {es : List ServiceEvent} {s s' : UpdateService} {e : ServiceEvent}
      (run : Run s₀ es s) (step : Step s e s') : Run s₀ (es ++ [e]) s'

end UpdateService

end Interchange
