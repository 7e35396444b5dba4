import Interchange.Server.Shared

/-!
# Requests that are alone

With nothing else under way, the steps of a handler add up to what `Server` does for its command
(`SharedServer.exists_run_replaceNetwork`, `SharedServer.exists_run_update`). So whatever a server
does that answers requests one after the other, the server under load can do, too
(`SharedServer.exists_run_respondAll`).
-/

namespace Interchange

/-- The state after requests, each answered at its time before the next one comes. -/
def Server.respondAll (s : Server) (requests : List (Clock × Request)) : Server :=
  requests.foldl (fun s r => (s.respond r.1 r.2).1) s

namespace UpdateService

/-- Nothing is to be done, and a request can be put into the queue. -/
structure Quiet (s : UpdateService) : Prop where
  idle : s.stage = .idle
  queue : s.queue = []
  capacity : 0 < s.capacity

private theorem quiet_start (timetable : Timetable) (buffer : Nat) :
    (start timetable buffer).Quiet where
  idle := rfl
  queue := rfl
  capacity := Nat.le_max_right buffer 1

/-- A request to a quiet service can be handled as a whole, up to the return of its call. -/
private theorem Quiet.exists_handled {s : UpdateService} (h : s.Quiet) (client : Nat)
    (request : UpdateRequest) (moment : Int) :
    ∃ s₁ s₂ s₃, Step s (.sent client request) s₁ ∧
      Run s₁ [.taken moment, .published, .noted, .replied] s₂ ∧
      Step s₂ (.returned ⟨client, s.sent⟩ (s.dispatcher.handle moment request).2) s₃ ∧
      s₃.Quiet ∧ s₃.dispatcher = (s.dispatcher.handle moment request).1 := by
  have hroom : s.queue.length < s.capacity := by
    rw [h.queue]
    exact h.capacity
  have hsent := Step.sent client request hroom
  rw [h.queue, List.nil_append] at hsent
  have hnil : Run { s with sent := s.sent + 1, queue := [(⟨client, s.sent⟩, request)] } [] _ := .nil
  have hrun := hnil.concat (.taken moment h.idle rfl) |>.concat (.published rfl)
    |>.concat (.noted rfl) |>.concat (.replied rfl)
  exact ⟨_, _, _, hsent, hrun, .returned List.mem_concat_self, ⟨rfl, rfl, h.capacity⟩, rfl⟩

end UpdateService

namespace SharedServer

variable {s s₀ s₁ s₂ : SharedServer} {es es' : List ServerEvent}

/-- The server that carries out one command at a time, in the same state. -/
def toServer (s : SharedServer) : Server where
  settings := s.settings
  network := s.network
  dispatcher := s.service.dispatcher

theorem toServer_start (settings : Settings) (network : Network) :
    (start settings network).toServer = .start settings network := rfl

/-- No request is under way. -/
structure Quiet (s : SharedServer) : Prop where
  free : s.lock = none
  service : s.service.Quiet

theorem quiet_start (settings : Settings) (network : Network) : (start settings network).Quiet where
  free := rfl
  service := UpdateService.quiet_start _ _

/-! ### Putting runs together -/

theorem Run.trans (h₁ : Run s₀ es s₁) (h₂ : Run s₁ es' s₂) : Run s₀ (es ++ es') s₂ := by
  induction h₂ with
  | nil => rwa [List.append_nil]
  | concat _ hstep ih =>
    rw [← List.append_assoc]
    exact ih.concat hstep

/-- Steps of the update service can be taken whoever has the lock, as long as they do not belong
to a reset. -/
theorem run_service {ses : List ServiceEvent} {service : UpdateService}
    (h : s.service.Run ses service) (hother : ∀ e ∈ ses, e.ofReset = false) :
    Run s (ses.map .service) { s with service } := by
  induction h with
  | nil => exact .nil
  | concat _ hstep ih =>
    rw [List.map_append]
    obtain ⟨hother, hlast⟩ := List.forall_mem_append.mp hother
    exact (ih hother).concat (.service (hlast _ (List.mem_singleton_self _)) hstep)

/-! ### The two commands -/

/-- **A batch that is alone** is applied and answered as by a server that does nothing else. -/
theorem exists_run_update (h : s.Quiet) (client : Nat) (clock : Clock) (batch : List Mutation) :
    ∃ es ticket result s', Run s (.service (.sent client (.apply batch)) :: es ++
        [.service (.returned ticket (.applied result))]) s' ∧
      s'.Quiet ∧ s.toServer.update clock batch = (s'.toServer, .ok result) := by
  obtain ⟨s₁, s₂, s₃, hsent, hrun, hreturned, hquiet, hdispatcher⟩ :=
    h.service.exists_handled client (.apply batch) clock.unix
  rw [Dispatcher.handle_apply] at hreturned hdispatcher
  have hstart : Run s [.service (.sent client (.apply batch))] { s with service := s₁ } :=
    Run.nil.concat (.service rfl hsent)
  have hmiddle := hstart.trans (run_service hrun (by simp [ServiceEvent.ofReset]))
  refine ⟨_, _, _, _, hmiddle.concat (.service rfl hreturned), ⟨h.free, hquiet⟩, ?_⟩
  simp only [toServer, hdispatcher]
  rfl

/-- **A new network that is alone** is built, published and answered as by a server that does
nothing else, and the timetable is reset to it. -/
theorem exists_run_replaceNetwork (h : s.Quiet) (client : Nat) (clock : Clock) (d : Description) :
    ∃ es s', Run s (.locked client d :: es ++
        [.answered client (s.toServer.replaceNetwork clock d).2]) s' ∧
      s'.Quiet ∧ s'.toServer = (s.toServer.replaceNetwork clock d).1 := by
  have hbuilt := Run.nil.concat (.locked client d h.free) |>.concat (.built clock.wall rfl)
  cases hbuild : Network.build d s.settings clock.wall with
  | error e =>
    -- the network that was there stays
    simp only [hbuild] at hbuilt
    have hanswered := hbuilt.concat (.answered rfl)
    have hreplace : s.toServer.replaceNetwork clock d = (s.toServer, .error (.network e)) := by
      simp only [Server.replaceNetwork, toServer, hbuild]
    rw [hreplace]
    exact ⟨_, _, hanswered, ⟨rfl, h.service⟩, rfl⟩
  | ok network =>
    simp only [hbuild] at hbuilt
    obtain ⟨s₁, s₂, s₃, hsent, hrun, hreturned, hquiet, hdispatcher⟩ :=
      h.service.exists_handled client (.reset network.timetable) clock.unix
    rw [Dispatcher.handle_reset] at hreturned hdispatcher
    have hstart := hbuilt.concat (.swapped rfl) |>.concat (.readBack rfl)
      |>.concat (.resetSent rfl hsent)
    have hmiddle := hstart.trans (run_service hrun (by simp [ServiceEvent.ofReset]))
    have hend := hmiddle.concat (.resetReturned rfl hreturned) |>.concat (.answered rfl)
    have hreplace : s.toServer.replaceNetwork clock d =
        ({ s.toServer with
            network := (s.network.replace network).1
            dispatcher := s.service.dispatcher.reset network.timetable }, .ok network.summary) := by
      simp only [Server.replaceNetwork, toServer, hbuild]
      rfl
    rw [hreplace]
    refine ⟨_, _, hend, ⟨rfl, hquiet⟩, ?_⟩
    simp only [toServer, hdispatcher]

/-! ### Requests one after the other -/

/-- Commands that only read take no step. -/
private theorem exists_run_perform (h : s.Quiet) (clock : Clock) (command : Command) :
    ∃ es s', Run s es s' ∧ s'.Quiet ∧ s'.toServer = (s.toServer.perform clock command).1 := by
  cases command with
  | replaceNetwork d =>
    obtain ⟨es, s', hrun, hquiet, hserver⟩ := exists_run_replaceNetwork h 0 clock d
    exact ⟨_, s', hrun, hquiet, hserver⟩
  | update batch =>
    obtain ⟨es, ticket, result, s', hrun, hquiet, hupdate⟩ := exists_run_update h 0 clock batch
    exact ⟨_, s', hrun, hquiet, (congrArg Prod.fst hupdate).symm⟩
  | health | summary | transfers | trip | boarding | latestUpdate => exact ⟨[], s, .nil, h, rfl⟩

/-- A request that makes no command takes no step, either. -/
theorem exists_run_respond (h : s.Quiet) (clock : Clock) (r : Request) :
    ∃ es s', Run s es s' ∧ s'.Quiet ∧ s'.toServer = (s.toServer.respond clock r).1 := by
  rw [Server.respond, Server.answer]
  cases Command.ofRequest r with
  | error refusal => exact ⟨[], s, .nil, h, rfl⟩
  | ok command => exact exists_run_perform h clock command

/-- **One after the other.** What a server does that answers one request after the other is a run
of the server under load. -/
theorem exists_run_respondAll (h : s.Quiet) (requests : List (Clock × Request)) :
    ∃ es s', Run s es s' ∧ s'.Quiet ∧ s'.toServer = s.toServer.respondAll requests := by
  induction requests generalizing s with
  | nil => exact ⟨[], s, .nil, h, rfl⟩
  | cons r requests ih =>
    obtain ⟨es, s₁, hrun, hquiet, hserver⟩ := exists_run_respond h r.1 r.2
    obtain ⟨es', s', hrun', hquiet', hserver'⟩ := ih hquiet
    refine ⟨es ++ es', s', hrun.trans hrun', hquiet', ?_⟩
    rw [hserver', hserver]
    rfl

end SharedServer

end Interchange
