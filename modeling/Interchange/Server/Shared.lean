import Interchange.Server.State
import Interchange.Update.Service

/-!
# The server under load

`Server` carries out one command after the other. Under load, handlers run side by side, and each
takes several steps. A batch of updates is a call of the update service: it is put into the queue,
and the handler waits for the reply. Replacing the network takes longer:

1. the handler takes a lock, of which there is only one, and keeps it to the end;
2. it builds the network, and answers at once if that fails;
3. it publishes the network, and reads back what is published;
4. it puts a reset to the timetable of the network into the queue, and waits for the reply;
5. it answers and releases the lock.

A handler that waits for the lock has done nothing yet, so it is no part of the state; nor is a
request that never gets to a handler. `SharedServer.Step` is one atomic step of a handler or of the
update service, and `SharedServer.Run` any interleaving of such steps.
-/

namespace Interchange

/-- How far a handler is that replaces the network, from when it has taken the lock. -/
inductive Replacement where
  /-- It is about to build the network -/
  | building (d : Description)
  /-- It is about to publish the network that it has built -/
  | built (network : Network)
  /-- It has published its network -/
  | swapped
  /-- It has read back the published network, and is about to ask for a reset -/
  | readBack (network : Network)
  /-- It waits for the reply to its reset -/
  | resetting (network : Network) (ticket : Ticket)
  /-- It is about to answer -/
  | answering (answer : Except Failure NetworkSummary)

/-- Where an attempt to build the network leads. -/
def Replacement.ofBuild : Except NetworkError Network → Replacement
  | .ok network => .built network
  | .error e => .answering (.error (.network e))

/-- A server whose handlers run side by side. -/
structure SharedServer where
  settings : Settings
  network : Published Network
  service : UpdateService
  /-- The client whose handler has the lock, and how far that handler is -/
  lock : Option (Nat × Replacement) := none

/-- Whether a step of the update service belongs to replacing a network. -/
def ServiceEvent.ofReset : ServiceEvent → Bool
  | .sent _ (.reset _) | .returned _ .resetDone => true
  | _ => false

/-- What can be seen of a step. -/
inductive ServerEvent where
  /-- A handler takes the lock, to replace the network by the one described -/
  | locked (client : Nat) (d : Description)
  /-- It builds the network, or fails to, with the moment on its clock -/
  | built (moment : DateTime)
  /-- It publishes the network -/
  | swapped
  /-- It reads back what is published -/
  | readBack
  /-- It answers and releases the lock -/
  | answered (client : Nat) (answer : Except Failure NetworkSummary)
  /-- The update service takes a step, or a handler takes one there -/
  | service (e : ServiceEvent)

namespace SharedServer

/-- A server that has just been started with a network. -/
def start (settings : Settings) (network : Network) : SharedServer where
  settings
  network := { current := network }
  service := .start network.timetable settings.queueSize

/-- The live timetable. -/
def timetable (s : SharedServer) : Timetable := s.service.dispatcher.timetable

/-- **Atomic steps.** `Step s e s'` says that the server can go from `s` to `s'` in a step seen
as `e`. -/
inductive Step (s : SharedServer) : ServerEvent → SharedServer → Prop
  | locked (client : Nat) (d : Description) (free : s.lock = none) :
      Step s (.locked client d) { s with lock := some (client, .building d) }
  | built (moment : DateTime) {client : Nat} {d : Description}
      (held : s.lock = some (client, .building d)) :
      Step s (.built moment)
        { s with lock := some (client, .ofBuild (Network.build d s.settings moment)) }
  | swapped {client : Nat} {network : Network} (held : s.lock = some (client, .built network)) :
      Step s .swapped
        { s with network := (s.network.replace network).1, lock := some (client, .swapped) }
  | readBack {client : Nat} (held : s.lock = some (client, .swapped)) :
      Step s .readBack { s with lock := some (client, .readBack s.network.current) }
  | resetSent {client : Nat} {network : Network} {service : UpdateService}
      (held : s.lock = some (client, .readBack network))
      (sent : s.service.Step (.sent client (.reset network.timetable)) service) :
      Step s (.service (.sent client (.reset network.timetable)))
        { s with service, lock := some (client, .resetting network ⟨client, s.service.sent⟩) }
  | resetReturned {client : Nat} {network : Network} {ticket : Ticket} {service : UpdateService}
      (held : s.lock = some (client, .resetting network ticket))
      (returned : s.service.Step (.returned ticket .resetDone) service) :
      Step s (.service (.returned ticket .resetDone))
        { s with service, lock := some (client, .answering (.ok network.summary)) }
  | answered {client : Nat} {answer : Except Failure NetworkSummary}
      (held : s.lock = some (client, .answering answer)) :
      Step s (.answered client answer) { s with lock := none }
  /-- Batches are handled, and readers served, whoever has the lock -/
  | service {e : ServiceEvent} {service : UpdateService} (other : e.ofReset = false)
      (step : s.service.Step e service) :
      Step s (.service e) { s with service }

/-- **Runs.** Steps of handlers and of the update service in any order, with what is seen of
them. -/
inductive Run (s₀ : SharedServer) : List ServerEvent → SharedServer → Prop
  | nil : Run s₀ [] s₀
  | concat {es : List ServerEvent} {s s' : SharedServer} {e : ServerEvent}
      (run : Run s₀ es s) (step : Step s e s') : Run s₀ (es ++ [e]) s'

end SharedServer

end Interchange
