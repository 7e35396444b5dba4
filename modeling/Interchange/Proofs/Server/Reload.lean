import Interchange.Proofs.Network.InStep
import Interchange.Proofs.Server.Alone
import Interchange.Proofs.Update.LastReset
import Interchange.Proofs.Update.Refinement

/-!
# The network and its live timetable

A network and its timetable are published one after the other, on different channels, while
batches go on. `SharedServer.Follows` is the invariant that survives this. It says what has become
of all resets that were ever put into the queue: the last of them is to the timetable of the
published network, unless the network has only just been published, and all have been replied to,
but for the one that is waited for. Whenever nobody has the lock, the published timetable has
therefore been through all resets, and since batches leave a timetable in step with the network
that it was seeded by, `SharedServer.Run.inStep_of_free` follows.
-/

namespace Interchange

/-! ### How far a replacement is -/

/-- The step of the update service that a step of the server is. -/
def ServerEvent.service? : ServerEvent → Option ServiceEvent
  | .service e => some e
  | .locked _ _ | .built _ | .swapped | .readBack | .answered _ _ => none

namespace Replacement

/-- A network has been published, but its reset is not in the queue yet. -/
def Ahead : Replacement → Prop
  | .swapped | .readBack _ => True
  | .building _ | .built _ | .resetting _ _ | .answering _ => False

/-- No network has been published, or its reset has been replied to. -/
def Settled : Replacement → Prop
  | .building _ | .built _ | .answering _ => True
  | .swapped | .readBack _ | .resetting _ _ => False

private theorem Settled.not_ahead {r : Replacement} (h : r.Settled) : ¬ r.Ahead := by
  cases r with
  | building | built | resetting | answering => exact id
  | swapped | readBack => exact h.elim

private theorem settled_ofBuild (x : Except NetworkError Network) : (ofBuild x).Settled := by
  cases x <;> exact trivial

private theorem eq_ok_of_ofBuild {x : Except NetworkError Network} {network : Network}
    (h : ofBuild x = .built network) : x = .ok network := by
  cases x with
  | error e => cases h
  | ok network' => rw [Replacement.built.inj h]

end Replacement

namespace SharedServer

variable {s s' : SharedServer}

/-- Nobody is between publishing a network and the reply to its reset. -/
def Settled (s : SharedServer) : Prop := ∀ client r, s.lock = some (client, r) → r.Settled

/-- Where nobody has the lock, everything is settled. -/
private theorem settled_of_free (h : s.lock = none) : s.Settled := by
  intro client r hheld
  rw [h] at hheld
  cases hheld

private theorem settled_of_held {client : Nat} {r : Replacement} (h : s.lock = some (client, r))
    (hr : r.Settled) : s.Settled := by
  intro client' r' hheld
  rw [h] at hheld
  obtain ⟨-, rfl⟩ := Prod.mk.inj (Option.some.inj hheld)
  exact hr

/-! ### The invariant -/

open UpdateService (Coherent)

/-- The steps of the update service among those of the server. -/
def serviceEvents (es : List ServerEvent) : List ServiceEvent :=
  es.filterMap ServerEvent.service?

private theorem serviceEvents_concat_service (es : List ServerEvent) (e : ServiceEvent) :
    serviceEvents (es ++ [.service e]) = serviceEvents es ++ [e] :=
  List.filterMap_append

/-- The other steps of the server leave the update service alone. -/
private theorem serviceEvents_concat_of_none {e : ServerEvent} (es : List ServerEvent)
    (h : e.service? = none) : serviceEvents (es ++ [e]) = serviceEvents es := by
  rw [serviceEvents, List.filterMap_append, List.filterMap_cons_none h, List.filterMap_nil,
    List.append_nil, serviceEvents]

/-- **The invariant.** How the state of the server follows from the steps `ses` of the update
service, when that started with the timetable `t₀`. -/
structure Follows (t₀ : Timetable) (ses : List ServiceEvent) (s : SharedServer) : Prop where
  service : Coherent t₀ (.ofEvents ses) s.service
  /-- The published network has been built -/
  current : s.network.current.IsBuilt
  /-- So has a network that is about to be published -/
  next : ∀ client network, s.lock = some (client, .built network) → network.IsBuilt
  /-- What has been read back is still published -/
  readBack : ∀ client network, s.lock = some (client, .readBack network) →
    network = s.network.current
  /-- The last reset is to the timetable of the published network -/
  seed : (∀ client r, s.lock = some (client, r) → ¬ r.Ahead) →
    (Ledger.ofEvents ses).seed t₀ = s.network.current.timetable
  /-- All resets have been replied to, but for the one that is waited for -/
  resets : ∀ ticket timetable, (ticket, .reset timetable) ∈ (Ledger.ofEvents ses).letters →
    ticket.number < (Ledger.ofEvents ses).replies ∨
      ∃ client network, s.lock = some (client, .resetting network ticket)

variable {t₀ : Timetable} {ses : List ServiceEvent}

private theorem follows_start {n : Network} (h : n.IsBuilt) (settings : Settings) :
    Follows n.timetable [] (start settings n) where
  service := UpdateService.coherent_start _ _
  current := h
  next := by rintro _ _ ⟨⟩
  readBack := by rintro _ _ ⟨⟩
  seed _ := rfl
  resets := by rintro _ _ ⟨⟩

namespace Follows

/-- Unless a reset is waited for, all have been replied to. -/
private theorem replied (h : Follows t₀ ses s)
    (hlock : ∀ client network ticket, s.lock ≠ some (client, .resetting network ticket)) :
    ∀ ticket timetable, (ticket, .reset timetable) ∈ (Ledger.ofEvents ses).letters →
      ticket.number < (Ledger.ofEvents ses).replies := by
  intro ticket timetable hmem
  rcases h.resets ticket timetable hmem with hreplied | ⟨client, network, hheld⟩
  · exact hreplied
  · exact absurd hheld (hlock client network ticket)

/-- Where everything is settled, all resets have been replied to. -/
theorem replied_of_settled (h : Follows t₀ ses s) (hsettled : s.Settled) :
    ∀ ticket timetable, (ticket, .reset timetable) ∈ (Ledger.ofEvents ses).letters →
      ticket.number < (Ledger.ofEvents ses).replies :=
  h.replied fun client _ _ hheld => hsettled client _ hheld

/-- **In step.** Apart from the time between publishing a network and the reply to its reset, the
live timetable is what batches have made of the timetable of the published network. -/
theorem inStep (h : Follows t₀ ses s) (hsettled : s.Settled) :
    s.network.current.InStep s.timetable := by
  -- a request is published before it is replied to
  have hpublishes := h.service.replies_le_notes.trans h.service.notes_le
  obtain ⟨batches, hbatches⟩ := Ledger.exists_timetableAfter_eq t₀ h.service.publishes_le
    fun ticket timetable hmem =>
      (h.replied_of_settled hsettled ticket timetable hmem).trans_le hpublishes
  rw [timetable, h.service.timetable, hbatches,
    h.seed fun client r hheld => (hsettled client r hheld).not_ahead]
  exact h.current.inStep_applyBatches batches

/-! ### Steps of the update service -/

/-- Whatever else the update service does, the resets stay as they are. -/
private theorem service_step (h : Follows t₀ ses s) {e : ServiceEvent} {service : UpdateService}
    (hstep : s.service.Step e service)
    (hsent : ∀ client timetable, e ≠ .sent client (.reset timetable)) :
    Follows t₀ (ses ++ [e]) { s with service } where
  service := by
    rw [Ledger.ofEvents_concat]
    exact h.service.step hstep
  current := h.current
  next := h.next
  readBack := h.readBack
  seed hahead := by
    rw [Ledger.ofEvents_concat, Ledger.seed_record t₀ _ hsent]
    exact h.seed hahead
  resets := by
    rw [Ledger.ofEvents_concat]
    intro ticket timetable hmem
    refine (h.resets ticket timetable (Ledger.reset_mem_record hsent hmem)).imp_left fun hlt => ?_
    exact hlt.trans_le (Ledger.replies_le_record _ e)

/-- With the reset of the published network in the queue, the last reset is its own. -/
private theorem resetSent_step (h : Follows t₀ ses s) {client : Nat} {network : Network}
    {service : UpdateService} (hheld : s.lock = some (client, .readBack network))
    (hsent : s.service.Step (.sent client (.reset network.timetable)) service) :
    Follows t₀ (ses ++ [.sent client (.reset network.timetable)])
      { s with service, lock := some (client, .resetting network ⟨client, s.service.sent⟩) } where
  service := by
    rw [Ledger.ofEvents_concat]
    exact h.service.step hsent
  current := h.current
  next := by rintro _ _ ⟨⟩
  readBack := by rintro _ _ ⟨⟩
  seed _ := by
    rw [Ledger.ofEvents_concat, Ledger.seed_record_reset, h.readBack client network hheld]
  resets := by
    rw [Ledger.ofEvents_concat]
    intro ticket timetable hmem
    rcases List.mem_append.mp hmem with hmem | hmem
    · exact .inl (h.replied (by rw [hheld]; rintro _ _ _ ⟨⟩) ticket timetable hmem)
    · -- the reset that has just been put into the queue is the one that is waited for
      obtain ⟨rfl, -⟩ := Prod.mk.inj (List.mem_singleton.mp hmem)
      rw [h.service.sent]
      exact .inr ⟨client, network, rfl⟩

/-- A reset that has returned has been replied to. -/
private theorem resetReturned_step (h : Follows t₀ ses s) {client : Nat} {network : Network}
    {ticket : Ticket} {service : UpdateService}
    (hheld : s.lock = some (client, .resetting network ticket))
    (hreturned : s.service.Step (.returned ticket .resetDone) service) :
    Follows t₀ (ses ++ [.returned ticket .resetDone])
      { s with service, lock := some (client, .answering (.ok network.summary)) } := by
  have h' := h.service_step hreturned nofun
  have hreplied := (h'.service.answer_of_returned List.mem_concat_self).1
  refine ⟨h'.service, h'.current, ?_, ?_, fun _ => h'.seed ?_, ?_⟩
  · rintro _ _ ⟨⟩
  · rintro _ _ ⟨⟩
  · rw [hheld]
    rintro _ _ ⟨⟩
    exact id
  · intro ticket' timetable hmem
    rcases h'.resets ticket' timetable hmem with hlt | ⟨_, _, hheld'⟩
    · exact .inl hlt
    · -- the reset that was waited for is the one that has returned
      rw [hheld] at hheld'
      obtain ⟨-, rfl⟩ := hheld'
      exact .inl hreplied

/-! ### Steps of handlers -/

/-- Taking and releasing the lock, and building a network. -/
private theorem lock_step (h : Follows t₀ ses s) (hsettled : s.Settled)
    {lock : Option (Nat × Replacement)} (hnew : ({ s with lock } : SharedServer).Settled)
    (hnext : ∀ client network, lock = some (client, .built network) → network.IsBuilt) :
    Follows t₀ ses { s with lock } where
  service := h.service
  current := h.current
  next := hnext
  readBack client _ hheld := (hnew client _ hheld).elim
  seed _ := h.seed fun client r hheld => (hsettled client r hheld).not_ahead
  resets ticket timetable hmem := .inl (h.replied_of_settled hsettled ticket timetable hmem)

/-- A build does not touch what is published. -/
private theorem built_step (h : Follows t₀ ses s) {client : Nat} {d : Description}
    (moment : DateTime) (hheld : s.lock = some (client, .building d)) :
    Follows t₀ ses
      { s with lock := some (client, .ofBuild (Network.build d s.settings moment)) } := by
  refine h.lock_step (settled_of_held hheld trivial)
    (settled_of_held rfl (Replacement.settled_ofBuild _)) fun client' network hbuilt => ?_
  obtain ⟨-, hbuild⟩ := Prod.mk.inj (Option.some.inj hbuilt)
  exact ⟨d, s.settings, moment, Replacement.eq_ok_of_ofBuild hbuild⟩

/-- With the network published, nothing is said about its reset yet. -/
private theorem swapped_step (h : Follows t₀ ses s) {client : Nat} {network : Network}
    (hheld : s.lock = some (client, .built network)) :
    Follows t₀ ses
      { s with network := (s.network.replace network).1, lock := some (client, .swapped) } where
  service := h.service
  current := h.next client network hheld
  next := by rintro _ _ ⟨⟩
  readBack := by rintro _ _ ⟨⟩
  seed hahead := absurd trivial (hahead client _ rfl)
  resets ticket timetable hmem :=
    .inl (h.replied_of_settled (settled_of_held hheld trivial) ticket timetable hmem)

/-- What is read back is what is published, for the lock is still held. -/
private theorem readBack_step (h : Follows t₀ ses s) {client : Nat}
    (hheld : s.lock = some (client, .swapped)) :
    Follows t₀ ses { s with lock := some (client, .readBack s.network.current) } where
  service := h.service
  current := h.current
  next := by rintro _ _ ⟨⟩
  readBack := by
    rintro _ _ ⟨⟩
    rfl
  seed hahead := absurd trivial (hahead client _ rfl)
  resets ticket timetable hmem :=
    .inl (h.replied (by rw [hheld]; rintro _ _ _ ⟨⟩) ticket timetable hmem)

/-- **Every step keeps the invariant.** -/
theorem step {es : List ServerEvent} {e : ServerEvent} (h : Follows t₀ (serviceEvents es) s)
    (hstep : Step s e s') : Follows t₀ (serviceEvents (es ++ [e])) s' := by
  cases hstep with
  | locked client d hfree =>
    rw [serviceEvents_concat_of_none es rfl]
    exact h.lock_step (settled_of_free hfree) (settled_of_held rfl trivial) (by rintro _ _ ⟨⟩)
  | built moment hheld =>
    rw [serviceEvents_concat_of_none es rfl]
    exact h.built_step moment hheld
  | swapped hheld =>
    rw [serviceEvents_concat_of_none es rfl]
    exact h.swapped_step hheld
  | readBack hheld =>
    rw [serviceEvents_concat_of_none es rfl]
    exact h.readBack_step hheld
  | resetSent hheld hsent =>
    rw [serviceEvents_concat_service]
    exact h.resetSent_step hheld hsent
  | resetReturned hheld hreturned =>
    rw [serviceEvents_concat_service]
    exact h.resetReturned_step hheld hreturned
  | answered hheld =>
    rw [serviceEvents_concat_of_none es rfl]
    exact h.lock_step (settled_of_held hheld trivial) (settled_of_free rfl) (by rintro _ _ ⟨⟩)
  | service hother hstep =>
    rw [serviceEvents_concat_service]
    -- only the handler that has the lock asks for a reset
    refine h.service_step hstep ?_
    rintro client timetable rfl
    cases hother

end Follows

/-- **Every run keeps the invariant.** -/
theorem Run.follows {n : Network} (h : n.IsBuilt) {settings : Settings} {es : List ServerEvent}
    (hrun : Run (start settings n) es s) : Follows n.timetable (serviceEvents es) s := by
  induction hrun with
  | nil => exact follows_start h settings
  | concat _ hstep ih => exact ih.step hstep

/-- **The live timetable stays in step with the network.** However handlers that replace the
network, handlers that apply batches and the dispatcher interleave: whenever nobody has the lock,
the live timetable is in step with the published network. -/
theorem Run.inStep_of_free {d : Description} {settings settings' : Settings} {moment : DateTime}
    {n : Network} {es : List ServerEvent} (hbuild : Network.build d settings' moment = .ok n)
    (hrun : Run (start settings n) es s) (hfree : s.lock = none) :
    s.network.current.InStep s.timetable :=
  (hrun.follows ⟨d, settings', moment, hbuild⟩).inStep (settled_of_free hfree)

/-- A network of two stops is replaced by one of a single stop. Meanwhile a batch cancels a trip
of the old network; it is handled after the new network has been published, and before the reset. -/
theorem inStep_of_free_batch_before_reset :
    let settings : Settings := .default 1
    let moment : DateTime := ⟨2024, 5, 1, 0, 0, 0, 0, by decide, by decide, by decide⟩
    let d : Description := { stops := Network.twoStops.stops.take 1 }
    let batch := [Mutation.cancel ⟨"N", "T", by decide⟩]
    ∃ n n' s, Network.build Network.twoStops settings moment = .ok n ∧
      Network.build d settings moment = .ok n' ∧
      Run (start settings n)
        [.locked 0 d, .service (.sent 1 (.apply batch)), .built moment, .swapped,
          .service (.taken 10), .readBack, .service .published, .service .noted,
          .service .replied, .service (.sent 0 (.reset n'.timetable)),
          .service (.returned ⟨1, 0⟩ (.applied (n.timetable.applyBatch batch 10).2)),
          .service (.taken 20), .service .published, .service .noted, .service .replied,
          .service (.returned ⟨0, 1⟩ .resetDone), .answered 0 (.ok n'.summary)] s ∧
      s.lock = none ∧ s.timetable = n'.timetable ∧ s.network.current.InStep s.timetable := by
  intro settings moment d batch
  obtain ⟨n, hn⟩ : ∃ n, Network.build Network.twoStops settings moment = .ok n := ⟨_, rfl⟩
  obtain ⟨n', hn'⟩ : ∃ n', Network.build d settings moment = .ok n' := ⟨_, rfl⟩
  have hroom : 0 < max 16 1 := by decide
  have hnil : Run (start settings n) [] _ := .nil
  have hbuilt := hnil.concat (.locked 0 d rfl)
    |>.concat (.service rfl (.sent 1 (.apply batch) hroom)) |>.concat (.built moment rfl)
  simp only [start, hn', Replacement.ofBuild] at hbuilt
  have hbatch := hbuilt.concat (.swapped rfl) |>.concat (.service rfl (.taken 10 rfl rfl))
    |>.concat (.readBack rfl) |>.concat (.service rfl (.published rfl))
    |>.concat (.service rfl (.noted rfl)) |>.concat (.service rfl (.replied rfl))
  have hreset := hbatch.concat (.resetSent rfl (.sent 0 (.reset n'.timetable) hroom))
    |>.concat (.service rfl (.returned List.mem_concat_self))
    |>.concat (.service rfl (.taken 20 rfl rfl)) |>.concat (.service rfl (.published rfl))
    |>.concat (.service rfl (.noted rfl)) |>.concat (.service rfl (.replied rfl))
  have hrun := hreset.concat (.resetReturned rfl (.returned List.mem_concat_self))
    |>.concat (.answered rfl)
  simp only [List.nil_append, List.cons_append] at hrun
  exact ⟨n, n', _, hn, hn', hrun, rfl, rfl, hrun.inStep_of_free hn rfl⟩

end SharedServer

/-- After any requests that are answered one after the other, timetable and network are in step. -/
theorem Server.inStep_respondAll {n : Network} (h : n.IsBuilt) (settings : Settings)
    (requests : List (Clock × Request)) :
    ((start settings n).respondAll requests).network.current.InStep
      ((start settings n).respondAll requests).timetable := by
  obtain ⟨es, s, hrun, hquiet, hserver⟩ :=
    SharedServer.exists_run_respondAll (SharedServer.quiet_start settings n) requests
  rw [SharedServer.toServer_start] at hserver
  rw [← hserver]
  exact (hrun.follows h).inStep (SharedServer.settled_of_free hquiet.free)

end Interchange
