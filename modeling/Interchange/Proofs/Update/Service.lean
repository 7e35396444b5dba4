import Interchange.Proofs.Update.Ledger

/-!
# The service works in place

Readers see what the dispatcher has published, and it works on copies. All the same the service
is as good as a single timetable to which the requests are applied in place, in the order of the
queue. `UpdateService.Coherent` is the invariant: it ties the state of the service to the
ledger of the run, and every step keeps it (`UpdateService.Coherent.step`).
-/

namespace Interchange

/-! ### The stages in numbers -/

namespace Stage

/-- The requests taken but not replied to. -/
def takes : Stage → Nat
  | .idle => 0
  | .prepared _ _ _ | .published _ _ | .noted _ _ => 1

/-- The requests published but not replied to. -/
def publishes : Stage → Nat
  | .idle | .prepared _ _ _ => 0
  | .published _ _ | .noted _ _ => 1

/-- The requests noted but not replied to. -/
def notes : Stage → Nat
  | .idle | .prepared _ _ _ | .published _ _ => 0
  | .noted _ _ => 1

/-- The reply that the dispatcher is going to make. -/
def pending? : Stage → Option (Ticket × UpdateReply)
  | .idle => none
  | .prepared ticket _ reply | .published ticket reply | .noted ticket reply => some (ticket, reply)

/-- A result is noted after its timetable has been published. -/
theorem notes_le_publishes (stage : Stage) : stage.notes ≤ stage.publishes := by
  cases stage <;> simp [notes, publishes]

/-- A timetable is published after its request has been taken. -/
theorem publishes_le_takes (stage : Stage) : stage.publishes ≤ stage.takes := by
  cases stage <;> simp [publishes, takes]

/-- One request is served at a time. -/
theorem takes_le_one (stage : Stage) : stage.takes ≤ 1 := by
  cases stage <;> simp [takes]

end Stage

namespace UpdateService

variable {t₀ : Timetable} {l : Ledger} {s s' : UpdateService}

/-! ### The invariant -/

/-- **The invariant.** How the state of the service follows from the ledger of the run, when
the service started with the timetable `t₀`. -/
structure Coherent (t₀ : Timetable) (l : Ledger) (s : UpdateService) : Prop where
  sent : s.sent = l.letters.length
  queue : s.queue = l.letters.drop l.moments.length
  causal : l.Causal
  takes : l.moments.length = l.replies + s.stage.takes
  publishes : l.publishes = l.replies + s.stage.publishes
  notes : l.notes = l.replies + s.stage.notes
  /-- The reply on its way is that of serving the request in place -/
  pending : ∀ p, s.stage.pending? = some p → (l.answers t₀)[l.replies]? = some p
  /-- What is about to be published is what serving the request in place makes -/
  next : ∀ ticket next reply, s.stage = .prepared ticket next reply →
    next.getD s.dispatcher.timetable = (t₀.serveAll l.history).1
  timetable : s.dispatcher.timetable = l.timetableAfter t₀ l.publishes
  latest : s.dispatcher.latest = l.latestAfter t₀ l.notes
  /-- The replies made so far have returned or wait to be picked up -/
  mail : (l.returns ++ s.replies).Perm ((l.answers t₀).take l.replies)

theorem coherent_start (t₀ : Timetable) (buffer : Nat) : Coherent t₀ {} (start t₀ buffer) where
  sent := rfl
  queue := rfl
  causal := Nat.le_refl 0
  takes := rfl
  publishes := rfl
  notes := rfl
  pending := by rintro p ⟨⟩
  next := by rintro ticket next reply ⟨⟩
  timetable := rfl
  latest := rfl
  mail := .refl _

namespace Coherent

/-! ### How far the dispatcher is -/

/-- Nothing is replied that has no answer. -/
theorem replies_le (h : Coherent t₀ l s) : l.replies ≤ (l.answers t₀).length := by
  rw [Ledger.length_answers t₀ h.causal, h.takes]
  exact Nat.le_add_right _ _

/-- Nothing is published for requests that have not been taken. -/
theorem publishes_le (h : Coherent t₀ l s) : l.publishes ≤ l.history.length := by
  rw [Ledger.length_history h.causal, h.takes, h.publishes]
  exact Nat.add_le_add_left s.stage.publishes_le_takes _

/-- At most one request has been taken and not replied to. -/
theorem length_history_le (h : Coherent t₀ l s) : l.history.length ≤ l.replies + 1 := by
  rw [Ledger.length_history h.causal, h.takes]
  exact Nat.add_le_add_left s.stage.takes_le_one _

/-- What has been replied to has been noted. -/
theorem replies_le_notes (h : Coherent t₀ l s) : l.replies ≤ l.notes := by
  rw [h.notes]
  exact Nat.le_add_right _ _

/-- What has been noted has been published. -/
theorem notes_le (h : Coherent t₀ l s) : l.notes ≤ l.publishes := by
  rw [h.publishes, h.notes]
  exact Nat.add_le_add_left s.stage.notes_le_publishes _

/-- What the stage of the dispatcher says about the ledger. -/
private theorem of_stage (h : Coherent t₀ l s) {stage : Stage} (hstage : s.stage = stage) :
    l.moments.length = l.replies + stage.takes ∧ l.publishes = l.replies + stage.publishes ∧
      l.notes = l.replies + stage.notes ∧
      ∀ p, stage.pending? = some p → (l.answers t₀)[l.replies]? = some p := by
  subst hstage
  exact ⟨h.takes, h.publishes, h.notes, h.pending⟩

/-- Once the dispatcher has replied, all that it has taken is done with. -/
theorem of_idle (h : Coherent t₀ l s) (hidle : s.stage = .idle) :
    l.moments.length = l.replies ∧ l.publishes = l.replies ∧ l.notes = l.replies := by
  obtain ⟨htakes, hpublishes, hnotes, -⟩ := h.of_stage hidle
  exact ⟨htakes, hpublishes, hnotes⟩

/-- Between two requests what is published is up to date. -/
private theorem timetable_of_idle (h : Coherent t₀ l s) (hidle : s.stage = .idle) :
    s.dispatcher.timetable = (t₀.serveAll l.history).1 := by
  obtain ⟨htakes, hpublishes, -⟩ := h.of_idle hidle
  rw [h.timetable, Ledger.timetableAfter_of_length_le]
  rw [Ledger.length_history h.causal, htakes, hpublishes]

/-! ### One lemma for each kind of step -/

/-- A request goes to the end of the queue. -/
private theorem sent_step (h : Coherent t₀ l s) (client : Nat) (request : UpdateRequest) :
    Coherent t₀ (l.record (.sent client request))
      { s with sent := s.sent + 1, queue := s.queue ++ [(⟨client, s.sent⟩, request)] } := by
  have hhistory := l.history_record_sent h.causal client request
  have hanswers := l.answers_record_sent t₀ h.causal client request
  have hnotes := h.notes_le.trans h.publishes_le
  refine
    { sent := ?_, queue := ?_, causal := l.causal_record_sent h.causal client request
      takes := h.takes, publishes := h.publishes, notes := h.notes
      pending := ?_, next := ?_
      timetable := h.timetable.trans
        (Ledger.timetableAfter_foldl t₀ h.causal h.publishes_le [.sent client request]).symm
      latest := h.latest.trans
        (Ledger.latestAfter_foldl t₀ h.causal hnotes [.sent client request]).symm
      mail := ?_ }
  · rw [Ledger.record, List.length_append, h.sent]
    rfl
  · rw [Ledger.record, List.drop_append_of_le_length h.causal, ← h.queue, h.sent]
  · rw [hanswers]
    exact h.pending
  · rw [hhistory]
    exact h.next
  · rw [hanswers]
    exact h.mail

/-- The dispatcher takes the first request and prepares what serving it in place makes. -/
private theorem taken_step (h : Coherent t₀ l s) (moment : Int) {ticket : Ticket}
    {request : UpdateRequest} {rest : List (Ticket × UpdateRequest)} (hidle : s.stage = .idle)
    (hhead : s.queue = (ticket, request) :: rest) :
    Coherent t₀ (l.record (.taken moment))
      { s with
        queue := rest
        stage := .prepared ticket (s.dispatcher.prepare moment request).1
          (s.dispatcher.prepare moment request).2 } := by
  have hqueue : l.letters.drop l.moments.length = (ticket, request) :: rest := h.queue ▸ hhead
  have hletter : l.letters[l.moments.length]? = some (ticket, request) := by
    rw [← List.head?_drop, hqueue]
    rfl
  have hhistory := l.history_record_taken moment hletter
  have hanswers := l.answers_record_taken t₀ h.causal moment hletter
  have htimetable := h.timetable_of_idle hidle
  obtain ⟨htakes, hpublishes, hnotes⟩ := h.of_idle hidle
  refine
    { sent := h.sent, queue := ?_, causal := ?_, takes := ?_, publishes := hpublishes
      notes := hnotes, pending := ?_, next := ?_
      timetable := h.timetable.trans
        (Ledger.timetableAfter_foldl t₀ h.causal h.publishes_le [.taken moment]).symm
      latest := h.latest.trans
        (Ledger.latestAfter_foldl t₀ h.causal (h.notes_le.trans h.publishes_le)
          [.taken moment]).symm
      mail := ?_ }
  · rw [Ledger.record, List.length_append, List.length_singleton, ← List.tail_drop, hqueue]
    rfl
  · -- a request that is taken came into the queue before
    have hlt := (List.getElem?_eq_some_iff.mp hletter).1
    rw [Ledger.Causal, Ledger.record, List.length_append]
    exact hlt
  · rw [Ledger.record, List.length_append, htakes]
    rfl
  · -- the new request is next to be replied to, and its answer is the last of the answers
    rintro p ⟨⟩
    have hlength : l.replies = (l.answers t₀).length := by
      rw [Ledger.length_answers t₀ h.causal, htakes]
    rw [hanswers, s.dispatcher.prepare_snd, htimetable]
    change (_ ++ _)[l.replies]? = _
    rw [hlength, List.getElem?_concat_length]
  · rintro _ _ _ ⟨⟩
    rw [hhistory, Timetable.serveAll_concat, ← htimetable]
    exact s.dispatcher.prepare_fst_getD moment request
  · rw [hanswers, Ledger.record, List.take_append_of_le_length h.replies_le]
    exact h.mail

/-- It publishes the timetable that it has prepared, if there is one. -/
private theorem published_step (h : Coherent t₀ l s) {ticket : Ticket} {next : Option Timetable}
    {reply : UpdateReply} (hstage : s.stage = .prepared ticket next reply) :
    Coherent t₀ (l.record .published)
      { s with dispatcher := s.dispatcher.publish next, stage := .published ticket reply } := by
  obtain ⟨htakes, hpublishes, hnotes, hpending⟩ := h.of_stage hstage
  refine
    { sent := h.sent, queue := h.queue, causal := h.causal, takes := htakes
      publishes := congrArg (· + 1) hpublishes, notes := hnotes, pending := hpending
      next := ?_, timetable := ?_, latest := h.latest, mail := h.mail }
  · rintro _ _ _ ⟨⟩
  · -- the request that was taken last is now published
    have hall : l.history.length ≤ l.publishes + 1 := by
      rw [Ledger.length_history h.causal, htakes, hpublishes]
      exact Nat.le_refl _
    exact (h.next ticket next reply hstage).trans (l.timetableAfter_of_length_le t₀ hall).symm

/-- It notes the result, if the reply has one. -/
private theorem noted_step (h : Coherent t₀ l s) {ticket : Ticket} {reply : UpdateReply}
    (hstage : s.stage = .published ticket reply) :
    Coherent t₀ (l.record .noted)
      { s with dispatcher := s.dispatcher.note reply, stage := .noted ticket reply } := by
  obtain ⟨htakes, hpublishes, hnotes, hpending⟩ := h.of_stage hstage
  refine
    { sent := h.sent, queue := h.queue, causal := h.causal, takes := htakes
      publishes := hpublishes, notes := congrArg (· + 1) hnotes, pending := hpending
      next := ?_, timetable := h.timetable, latest := ?_, mail := h.mail }
  · rintro _ _ _ ⟨⟩
  · -- the answer on its way is the reply to the request whose result is noted
    have hreply : (t₀.serveAll l.history).2[l.notes]? = some reply := by
      have hanswer := hpending _ rfl
      rw [Ledger.answers, List.getElem?_zip_eq_some] at hanswer
      rw [hnotes]
      exact hanswer.2
    refine Eq.trans ?_ (Ledger.latestAfter_succ hreply).symm
    rw [← h.latest]
    rfl

/-- It makes the reply and is idle again. -/
private theorem replied_step (h : Coherent t₀ l s) {ticket : Ticket} {reply : UpdateReply}
    (hstage : s.stage = .noted ticket reply) :
    Coherent t₀ (l.record .replied)
      { s with stage := .idle, replies := s.replies ++ [(ticket, reply)] } := by
  obtain ⟨htakes, hpublishes, hnotes, hpending⟩ := h.of_stage hstage
  refine
    { sent := h.sent, queue := h.queue, causal := h.causal, takes := htakes
      publishes := hpublishes, notes := hnotes, pending := ?_
      next := ?_, timetable := h.timetable, latest := h.latest, mail := ?_ }
  · rintro p ⟨⟩
  · rintro _ _ _ ⟨⟩
  · change (l.returns ++ (s.replies ++ [(ticket, reply)])).Perm
      ((l.answers t₀).take (l.replies + 1))
    rw [← List.append_assoc, List.take_add_one, hpending _ rfl]
    exact h.mail.append_right _

/-- A call picks up its reply and returns. -/
private theorem returned_step (h : Coherent t₀ l s) {ticket : Ticket} {reply : UpdateReply}
    (harrived : (ticket, reply) ∈ s.replies) :
    Coherent t₀ (l.record (.returned ticket reply))
      { s with replies := s.replies.erase (ticket, reply) } := by
  refine
    { sent := h.sent, queue := h.queue, causal := h.causal, takes := h.takes
      publishes := h.publishes, notes := h.notes, pending := h.pending
      next := h.next, timetable := h.timetable, latest := h.latest, mail := ?_ }
  have hperm : (l.returns ++ (ticket, reply) :: s.replies.erase (ticket, reply)).Perm
      (l.returns ++ s.replies) := (List.perm_cons_erase harrived).symm.append_left _
  rw [List.append_cons] at hperm
  exact hperm.trans h.mail

/-- **Every step keeps the invariant.** -/
theorem step {e : ServiceEvent} (h : Coherent t₀ l s) (hstep : Step s e s') :
    Coherent t₀ (l.record e) s' := by
  cases hstep with
  | sent client request => exact h.sent_step client request
  | taken moment hidle hhead => exact h.taken_step moment hidle hhead
  | published hstage => exact h.published_step hstage
  | noted hstage => exact h.noted_step hstage
  | replied hstage => exact h.replied_step hstage
  | returned harrived => exact h.returned_step harrived
  | sawTimetable | sawLatest => exact h

end Coherent

/-- **Every run keeps the invariant.** -/
theorem Run.coherent {buffer : Nat} {es : List ServiceEvent}
    (h : Run (start t₀ buffer) es s) : Coherent t₀ (.ofEvents es) s := by
  induction h with
  | nil => exact coherent_start t₀ buffer
  | concat _ hstep ih =>
    rw [Ledger.ofEvents_concat]
    exact ih.step hstep

end UpdateService

end Interchange
