import Interchange.Proofs.Update.Service

/-!
# What clients see

Whatever the clients do, and however their steps and those of the dispatcher interleave, they
see what a single timetable would show to which the requests are applied in place, in the order
of the queue. `UpdateService.ServesInPlace` says this for a run: what is published between two
requests, what calls return, what clients read at any moment, and that the dispatcher is never
stuck. `UpdateService.Run.serves_in_place` says that every run is such a run.
-/

namespace Interchange

namespace UpdateService

variable {t₀ : Timetable} {es pre post : List ServiceEvent} {s s₀ s₁ s₂ : UpdateService}

/-! ### Moments within a run -/

private theorem Run.concat_inv {e : ServiceEvent} (h : Run s₀ (es ++ [e]) s) :
    ∃ s₁, Run s₀ es s₁ ∧ Step s₁ e s := by
  generalize hes : es ++ [e] = es' at h
  cases h with
  | nil => simp at hes
  | concat hrun hstep =>
    obtain ⟨rfl, he⟩ := List.append_inj' hes rfl
    obtain rfl := List.singleton_inj.mp he
    exact ⟨_, hrun, hstep⟩

/-- What leads to an event is a run, too. -/
private theorem Run.before {e : ServiceEvent} (h : Run s₀ (pre ++ e :: post) s) :
    ∃ s₁ s₂, Run s₀ pre s₁ ∧ Step s₁ e s₂ := by
  induction post using List.reverseRecOn generalizing s with
  | nil =>
    obtain ⟨s₁, hrun, hstep⟩ := h.concat_inv
    exact ⟨s₁, s, hrun, hstep⟩
  | append_singleton post e' ih =>
    -- the last event comes after the one in question
    rw [← List.cons_append, ← List.append_assoc] at h
    obtain ⟨s₁, hrun, -⟩ := h.concat_inv
    exact ih hrun

/-- Before any event of a run the service is coherent. -/
private theorem Run.coherent_before {buffer : Nat} {e : ServiceEvent}
    (h : Run (start t₀ buffer) (pre ++ e :: post) s) :
    ∃ s₁ s₂, Coherent t₀ (.ofEvents pre) s₁ ∧ Step s₁ e s₂ := by
  obtain ⟨s₁, s₂, hrun, hstep⟩ := h.before
  exact ⟨s₁, s₂, hrun.coherent, hstep⟩

/-! ### Replies and their requests -/

/-- A call gets what serving its request in place replies, on the timetable that the requests
before it leave. -/
def Answered (t₀ : Timetable) (l : Ledger) (ticket : Ticket) (reply : UpdateReply) : Prop :=
  ∃ request moment, l.letters[ticket.number]? = some (ticket, request) ∧
    l.history[ticket.number]? = some (request, moment) ∧
      reply = ((l.timetableAfter t₀ ticket.number).serve moment request).2

/-- The answer at a place of the ledger is that of serving in place. -/
private theorem answered_of_getElem?_answers {ticket : Ticket} {reply : UpdateReply} {n : Nat}
    (h : ((Ledger.ofEvents es).answers t₀)[n]? = some (ticket, reply)) :
    Answered t₀ (.ofEvents es) ticket reply := by
  have hnumber : ticket.number = n := Ledger.number_of_getElem?_answers h
  rw [Ledger.answers, List.getElem?_zip_eq_some, List.getElem?_map] at h
  obtain ⟨hticket, hreply⟩ := h
  obtain ⟨⟨ticket, request⟩, hletter, rfl⟩ := Option.map_eq_some_iff.mp hticket
  rw [Timetable.getElem?_serveAll] at hreply
  obtain ⟨⟨request', moment⟩, hhistory, rfl⟩ := Option.map_eq_some_iff.mp hreply
  -- queue and reference have the same request under this number
  have hsame : request' = request := by
    have hrequest := (List.getElem?_zip_eq_some.mp hhistory).1
    rw [List.getElem?_map, hletter] at hrequest
    exact (Option.some.inj hrequest).symm
  subst hsame
  subst hnumber
  exact ⟨request', moment, hletter, hhistory, rfl⟩

namespace Coherent

/-- A call that has returned has been replied to, with the answer to its request. -/
theorem answer_of_returned (h : Coherent t₀ (.ofEvents es) s) {ticket : Ticket}
    {reply : UpdateReply} (hmem : .returned ticket reply ∈ es) :
    ticket.number < (Ledger.ofEvents es).replies ∧
      ((Ledger.ofEvents es).answers t₀)[ticket.number]? = some (ticket, reply) := by
  have hreturn := List.mem_append_left s.replies (Ledger.mem_returns_ofEvents.mpr hmem)
  obtain ⟨n, hn⟩ := List.mem_iff_getElem?.mp (h.mail.mem_iff.mp hreturn)
  rw [List.getElem?_take] at hn
  split_ifs at hn with hlt
  obtain rfl : ticket.number = n := Ledger.number_of_getElem?_answers hn
  exact ⟨hlt, hn⟩

/-- No call returns twice. -/
private theorem nodup_returns (h : Coherent t₀ (.ofEvents es) s) :
    ((Ledger.ofEvents es).returns.map fun p => p.1.number).Nodup := by
  have hmail := h.mail.map fun p : Ticket × UpdateReply => p.1.number
  have hanswers : (((Ledger.ofEvents es).answers t₀).take (Ledger.ofEvents es).replies |>.map
      fun p => p.1.number).Nodup := by
    rw [List.map_take]
    exact (Ledger.nodup_numbers_answers t₀ es).sublist (List.take_sublist _ _)
  have hall := hmail.nodup_iff.mpr hanswers
  rw [List.map_append] at hall
  exact (List.nodup_append.mp hall).1

/-- A reply that has been made has returned or can be picked up. -/
private theorem returned_or_step (h : Coherent t₀ (.ofEvents es) s) {n : Nat}
    (hn : n < (Ledger.ofEvents es).replies) :
    ∃ ticket reply, ticket.number = n ∧ Answered t₀ (.ofEvents es) ticket reply ∧
      (.returned ticket reply ∈ es ∨ ∃ s', Step s (.returned ticket reply) s') := by
  obtain ⟨⟨ticket, reply⟩, hanswer⟩ : ∃ p, ((Ledger.ofEvents es).answers t₀)[n]? = some p :=
    ⟨_, List.getElem?_eq_getElem (Nat.lt_of_lt_of_le hn h.replies_le)⟩
  refine ⟨ticket, reply, Ledger.number_of_getElem?_answers hanswer,
    answered_of_getElem?_answers hanswer, ?_⟩
  have hmem : (ticket, reply) ∈ (Ledger.ofEvents es).returns ++ s.replies := by
    refine h.mail.mem_iff.mpr (List.mem_iff_getElem?.mpr ⟨n, ?_⟩)
    rw [List.getElem?_take, if_pos hn, hanswer]
  rcases List.mem_append.mp hmem with hreturn | harrived
  · exact .inl (Ledger.mem_returns_ofEvents.mp hreturn)
  · exact .inr ⟨_, .returned harrived⟩

/-- As long as a request waits for its reply, the dispatcher can take a step. -/
private theorem exists_step {l : Ledger} (h : Coherent t₀ l s)
    (hwaiting : l.replies < l.letters.length) (moment : Int) :
    ∃ e ∈ [ServiceEvent.taken moment, .published, .noted, .replied], ∃ s', Step s e s' := by
  cases hstage : s.stage with
  | idle =>
    have hlt : l.moments.length < l.letters.length := by rwa [(h.of_idle hstage).1]
    have hqueue := h.queue
    rw [List.drop_eq_getElem_cons hlt] at hqueue
    exact ⟨.taken moment, by simp, _, .taken moment hstage hqueue⟩
  | prepared => exact ⟨.published, by simp, _, .published hstage⟩
  | published => exact ⟨.noted, by simp, _, .noted hstage⟩
  | noted => exact ⟨.replied, by simp, _, .replied hstage⟩

/-- The dispatcher takes four steps for each request. -/
private theorem replies_eq {l : Ledger} (h : Coherent t₀ l s) : l.replies = l.dispatches / 4 := by
  have htakes := h.takes
  have hpublishes := h.publishes
  have hnotes := h.notes
  have h₁ := s.stage.notes_le_publishes
  have h₂ := s.stage.publishes_le_takes
  have h₃ := s.stage.takes_le_one
  rw [Ledger.dispatches]
  omega

end Coherent

/-! ### The service as a whole -/

/-- **Serving in place.** What can be seen of a run `es` that has led to `s`, when the service
started with the timetable `t₀` and `l` is the ledger of the run. The reference is
`Timetable.serveAll`, which applies requests to a single timetable in place; here it is
`l.timetableAfter t₀ n` after the first `n` requests of the queue. -/
structure ServesInPlace (t₀ : Timetable) (es : List ServiceEvent) (l : Ledger) (s : UpdateService) :
    Prop where
  /-- Requests are taken in the order of the queue, and one is handled at a time -/
  order : l.history.map Prod.fst <+: l.letters.map Prod.snd ∧
    l.replies ≤ l.notes ∧ l.notes ≤ l.publishes ∧ l.publishes ≤ l.history.length ∧
    l.history.length ≤ l.replies + 1
  /-- The published timetable is what the requests published so far make in place -/
  timetable : s.dispatcher.timetable = l.timetableAfter t₀ l.publishes
  /-- The latest result is that of the last batch noted so far, whatever has been reset since -/
  latest : s.dispatcher.latest = l.latestAfter t₀ l.notes
  /-- Between two requests both are up to date with all requests replied to -/
  settled : s.stage = .idle →
    s.dispatcher.timetable = l.timetableAfter t₀ l.replies ∧
      s.dispatcher.latest = l.latestAfter t₀ l.replies
  /-- Calls return the replies to their own requests -/
  answered : ∀ ticket reply, .returned ticket reply ∈ es → Answered t₀ l ticket reply
  /-- No call returns twice -/
  once : (l.returns.map fun p => p.1.number).Nodup
  /-- Who reads the timetable sees what a prefix of the queue makes of it, and the prefix has
  the requests of all calls that have returned -/
  read_timetable : ∀ pre client seen post, es = pre ++ .sawTimetable client seen :: post →
    ∃ n ≤ l.history.length, seen = l.timetableAfter t₀ n ∧
      n = (Ledger.ofEvents pre).publishes ∧ n ≤ (Ledger.ofEvents pre).letters.length ∧
      ∀ ticket reply, .returned ticket reply ∈ pre → ticket.number < n
  /-- Who reads the latest result sees that of the last batch in such a prefix -/
  read_latest : ∀ pre client seen post, es = pre ++ .sawLatest client seen :: post →
    ∃ n ≤ l.history.length, seen = l.latestAfter t₀ n ∧
      n = (Ledger.ofEvents pre).notes ∧ n ≤ (Ledger.ofEvents pre).letters.length ∧
      ∀ ticket reply, .returned ticket reply ∈ pre → ticket.number < n
  /-- The dispatcher can go on as long as a request waits for its reply -/
  progress : l.replies < l.letters.length → ∀ moment,
    ∃ e ∈ [ServiceEvent.taken moment, .published, .noted, .replied], ∃ s', Step s e s'
  /-- Every fourth of its steps replies to the next request -/
  pace : l.replies = l.dispatches / 4
  /-- A call whose request has been replied to has returned or can return -/
  delivery : ∀ n < l.replies, ∃ ticket reply, ticket.number = n ∧ Answered t₀ l ticket reply ∧
    (.returned ticket reply ∈ es ∨ ∃ s', Step s (.returned ticket reply) s')

/-- **The update service refines a timetable that is updated in place.** Every run of clients
and dispatcher serves the requests in place. -/
theorem Run.serves_in_place {buffer : Nat} (h : Run (start t₀ buffer) es s) :
    ServesInPlace t₀ es (.ofEvents es) s := by
  have hs := h.coherent
  constructor
  case order => exact ⟨Ledger.isPrefix_map_fst_history _, hs.replies_le_notes, hs.notes_le,
    hs.publishes_le, hs.length_history_le⟩
  case timetable => exact hs.timetable
  case latest => exact hs.latest
  case settled =>
    intro hidle
    obtain ⟨-, hpublishes, hnotes⟩ := hs.of_idle hidle
    rw [← hpublishes, ← hs.timetable, hpublishes, ← hnotes, ← hs.latest]
    exact ⟨rfl, rfl⟩
  case answered =>
    intro ticket reply hmem
    exact answered_of_getElem?_answers (hs.answer_of_returned hmem).2
  case once => exact hs.nodup_returns
  case read_timetable =>
    rintro pre client seen post rfl
    obtain ⟨s₁, s₂, hs₁, hstep⟩ := h.coherent_before
    have hpublishes := hs₁.publishes_le
    have hreplies := hs₁.replies_le_notes.trans hs₁.notes_le
    -- what comes after the read does not change the part of the history that was published
    rw [Ledger.ofEvents_append]
    refine ⟨_, Ledger.le_length_history_foldl hs₁.causal hpublishes _, ?_, rfl,
      hpublishes.trans (Ledger.length_history_le_letters hs₁.causal), fun ticket reply hmem => ?_⟩
    · rw [Ledger.timetableAfter_foldl t₀ hs₁.causal hpublishes]
      cases hstep
      exact hs₁.timetable
    · exact Nat.lt_of_lt_of_le (hs₁.answer_of_returned hmem).1 hreplies
  case read_latest =>
    rintro pre client seen post rfl
    obtain ⟨s₁, s₂, hs₁, hstep⟩ := h.coherent_before
    have hnotes := hs₁.notes_le.trans hs₁.publishes_le
    rw [Ledger.ofEvents_append]
    refine ⟨_, Ledger.le_length_history_foldl hs₁.causal hnotes _, ?_, rfl,
      hnotes.trans (Ledger.length_history_le_letters hs₁.causal), fun ticket reply hmem => ?_⟩
    · rw [Ledger.latestAfter_foldl t₀ hs₁.causal hnotes]
      cases hstep
      exact hs₁.latest
    · exact Nat.lt_of_lt_of_le (hs₁.answer_of_returned hmem).1 hs₁.replies_le_notes
  case progress =>
    intro hwaiting moment
    exact hs.exists_step hwaiting moment
  case pace => exact hs.replies_eq
  case delivery =>
    intro n hn
    exact hs.returned_or_step hn

/-- Client 0 submits a batch that fails, while client 1 resets the timetable. After its call has
returned, client 0 reads the timetable as the failed batch has left it, and client 1 reads the
new one after its own call. The latest result is still that of the batch. -/
theorem serves_in_place_batch_reset :
    let cancel := Mutation.cancel ⟨"F", "T", by decide⟩
    let result := ((Timetable.empty 2).applyBatch [cancel] 10).2
    let es : List ServiceEvent := [.sent 0 (.apply [cancel]), .taken 10,
      .sent 1 (.reset (.empty 3)), .published, .noted, .replied,
      .returned ⟨0, 0⟩ (.applied result), .sawTimetable 0 (.empty 2),
      .taken 20, .published, .noted, .replied,
      .returned ⟨1, 1⟩ .resetDone, .sawTimetable 1 (.empty 3), .sawLatest 1 (some result)]
    ∃ s, Run (start (.empty 2) 1) es s ∧ ServesInPlace (.empty 2) es (.ofEvents es) s := by
  intro cancel result es
  have hstart : Run (start (.empty 2) 1) [] (start (.empty 2) 1) := .nil
  have h := hstart.concat (.sent 0 (.apply [cancel]) (by decide)) |>.concat (.taken 10 rfl rfl)
    |>.concat (.sent 1 (.reset (.empty 3)) (by decide))
    |>.concat (.published rfl) |>.concat (.noted rfl) |>.concat (.replied rfl)
    |>.concat (.returned List.mem_concat_self) |>.concat (.sawTimetable 0)
    |>.concat (.taken 20 rfl rfl)
    |>.concat (.published rfl) |>.concat (.noted rfl) |>.concat (.replied rfl)
    |>.concat (.returned List.mem_concat_self) |>.concat (.sawTimetable 1) |>.concat (.sawLatest 1)
  exact ⟨_, h, Run.serves_in_place h⟩

end UpdateService

end Interchange
