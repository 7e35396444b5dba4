import Interchange.Proofs.Update.InPlace
import Interchange.Update.Service
import Mathlib.Data.List.Infix

/-!
# The ledger of a run

An observer of the update service writes down which requests came into the queue, at which
moments the dispatcher took them, and how far it has got with them. From this ledger follows
what serving the requests in place makes (`Ledger.history`, `Ledger.answers`), which is the
reference that runs are compared with. What has been taken off the queue is settled: later
events only add to the reference (`Ledger.isPrefix_history`, `Ledger.isPrefix_answers`).
-/

namespace Interchange

/-- What an observer of a run writes down. -/
structure Ledger where
  /-- The requests that came into the queue, in order, with the tickets of their calls -/
  letters : List (Ticket × UpdateRequest) := []
  /-- The moments at which the dispatcher took requests off the queue -/
  moments : List Int := []
  /-- How many requests the dispatcher is done with publishing for -/
  publishes : Nat := 0
  /-- How many requests the dispatcher is done with noting the result of -/
  notes : Nat := 0
  /-- How many requests the dispatcher has replied to -/
  replies : Nat := 0
  /-- The calls that have returned, with what they returned -/
  returns : List (Ticket × UpdateReply) := []

namespace Ledger

/-- Writes down one more event. -/
def record (l : Ledger) : ServiceEvent → Ledger
  | .sent client request =>
    { l with letters := l.letters ++ [(⟨client, l.letters.length⟩, request)] }
  | .taken moment => { l with moments := l.moments ++ [moment] }
  | .published => { l with publishes := l.publishes + 1 }
  | .noted => { l with notes := l.notes + 1 }
  | .replied => { l with replies := l.replies + 1 }
  | .returned ticket reply => { l with returns := l.returns ++ [(ticket, reply)] }
  | .sawTimetable _ _ | .sawLatest _ _ => l

/-- The ledger of a sequence of events. -/
def ofEvents (es : List ServiceEvent) : Ledger := es.foldl record {}

/-- The requests that were taken off the queue, in order, each with its moment. -/
def history (l : Ledger) : List (UpdateRequest × Int) := (l.letters.map Prod.snd).zip l.moments

/-- The replies that serving these requests in place makes, with the tickets of their calls. -/
def answers (t₀ : Timetable) (l : Ledger) : List (Ticket × UpdateReply) :=
  (l.letters.map Prod.fst).zip (t₀.serveAll l.history).2

/-- The timetable that serving the first `n` of these requests in place makes. -/
def timetableAfter (t₀ : Timetable) (l : Ledger) (n : Nat) : Timetable :=
  (t₀.serveAll (l.history.take n)).1

/-- The result of the last batch among the first `n` of these requests. -/
def latestAfter (t₀ : Timetable) (l : Ledger) (n : Nat) : Option BatchResult :=
  lastResult? (t₀.serveAll (l.history.take n)).2

/-- How many steps the dispatcher has taken. -/
def dispatches (l : Ledger) : Nat := l.moments.length + l.publishes + l.notes + l.replies

/-- No more requests have been taken off the queue than came into it. -/
def Causal (l : Ledger) : Prop := l.moments.length ≤ l.letters.length

variable {l : Ledger} {t₀ : Timetable} {es : List ServiceEvent}

theorem ofEvents_append (es es' : List ServiceEvent) :
    ofEvents (es ++ es') = es'.foldl record (ofEvents es) :=
  List.foldl_append

theorem ofEvents_concat (es : List ServiceEvent) (e : ServiceEvent) :
    ofEvents (es ++ [e]) = (ofEvents es).record e :=
  ofEvents_append es [e]

theorem mem_returns_ofEvents {ticket : Ticket} {reply : UpdateReply} :
    (ticket, reply) ∈ (ofEvents es).returns ↔ .returned ticket reply ∈ es := by
  induction es using List.reverseRecOn with
  | nil => simp [ofEvents]
  | append_singleton es e ih =>
    rw [ofEvents_concat, List.mem_append, ← ih]
    cases e <;> simp [record]

/-! ### Tickets -/

/-- Tickets are numbered in the order of the queue. -/
theorem number_of_getElem?_letters {n : Nat} {p : Ticket × UpdateRequest}
    (h : (ofEvents es).letters[n]? = some p) : p.1.number = n := by
  induction es using List.reverseRecOn with
  | nil => cases h
  | append_singleton es e ih =>
    rw [ofEvents_concat] at h
    cases e with
    | sent client request =>
      rw [record, List.getElem?_append] at h
      split_ifs at h with hn
      · exact ih h
      · obtain ⟨hlt, rfl⟩ := List.getElem?_eq_some_iff.mp h
        simp only [List.length_singleton] at hlt
        simp only [List.getElem_singleton]
        omega
    | taken | published | noted | replied | returned | sawTimetable | sawLatest => exact ih h

/-- Replies come in the order of their tickets. -/
theorem number_of_getElem?_answers {n : Nat} {p : Ticket × UpdateReply}
    (h : ((ofEvents es).answers t₀)[n]? = some p) : p.1.number = n := by
  rw [answers, List.getElem?_zip_eq_some, List.getElem?_map] at h
  obtain ⟨q, hq, hp⟩ := Option.map_eq_some_iff.mp h.1
  rw [← hp]
  exact number_of_getElem?_letters hq

/-- No two answers are for the same request. -/
theorem nodup_numbers_answers (t₀ : Timetable) (es : List ServiceEvent) :
    (((ofEvents es).answers t₀).map fun p => p.1.number).Nodup := by
  have hrange : ((ofEvents es).answers t₀).map (fun p => p.1.number) =
      List.range ((ofEvents es).answers t₀).length := by
    refine List.ext_getElem? fun n => ?_
    rw [List.getElem?_map]
    cases h : ((ofEvents es).answers t₀)[n]? with
    | none =>
      have hlen := List.getElem?_eq_none_iff.mp h
      exact (List.getElem?_eq_none (by rwa [List.length_range])).symm
    | some p =>
      obtain ⟨hlen, -⟩ := List.getElem?_eq_some_iff.mp h
      rw [List.getElem?_range hlen, Option.map_some, number_of_getElem?_answers h]
  rw [hrange]
  exact List.nodup_range

/-! ### The reference grows with the run -/

section Lists

variable {α β : Type} {as as' : List α} {bs bs' : List β}

private theorem zip_concat {a : α} (b : β) (h : as[bs.length]? = some a) :
    as.zip (bs ++ [b]) = as.zip bs ++ [(a, b)] := by
  induction bs generalizing as with
  | nil =>
    cases as with
    | nil => cases h
    | cons a' as =>
      obtain rfl := Option.some.inj h
      simp
  | cons b' bs ih =>
    cases as with
    | nil => cases h
    | cons a' as =>
      rw [List.cons_append, List.zip_cons_cons, ih h, List.zip_cons_cons, List.cons_append]

private theorem isPrefix_zip (ha : as <+: as') (hb : bs <+: bs') (h : bs.length ≤ as.length) :
    as.zip bs <+: as'.zip bs' := by
  obtain ⟨xs, rfl⟩ := ha
  obtain ⟨ys, rfl⟩ := hb
  -- only as much of `as` as `bs` has partners for gets into the shorter list of pairs
  have hsplit : as ++ xs = as.take bs.length ++ (as.drop bs.length ++ xs) := by
    rw [← List.append_assoc, List.take_append_drop]
  have hzip : as.zip bs = (as.take bs.length).zip bs := by
    rw [List.zip_eq_zip_take_min, Nat.min_eq_right h, List.take_length]
  have hlength : (as.take bs.length).length = bs.length := by
    rw [List.length_take, Nat.min_eq_left h]
  refine ⟨(as.drop bs.length ++ xs).zip ys, ?_⟩
  rw [hsplit, List.zip_append hlength, hzip]

end Lists

private theorem isPrefix_letters (l : Ledger) (es : List ServiceEvent) :
    l.letters <+: (es.foldl record l).letters := by
  induction es generalizing l with
  | nil => exact List.prefix_rfl
  | cons e es ih =>
    refine List.IsPrefix.trans ?_ (ih (l.record e))
    cases e with
    | sent client request => exact List.prefix_append _ _
    | taken | published | noted | replied | returned | sawTimetable | sawLatest =>
      exact List.prefix_rfl

private theorem isPrefix_moments (l : Ledger) (es : List ServiceEvent) :
    l.moments <+: (es.foldl record l).moments := by
  induction es generalizing l with
  | nil => exact List.prefix_rfl
  | cons e es ih =>
    refine List.IsPrefix.trans ?_ (ih (l.record e))
    cases e with
    | taken moment => exact List.prefix_append _ _
    | sent | published | noted | replied | returned | sawTimetable | sawLatest =>
      exact List.prefix_rfl

/-- Requests are taken in the order of the queue. -/
theorem isPrefix_map_fst_history (l : Ledger) :
    l.history.map Prod.fst <+: l.letters.map Prod.snd := by
  rw [history, List.zip_eq_zip_take_min, List.map_fst_zip (by simp)]
  exact List.take_prefix _ _

theorem length_history (h : l.Causal) : l.history.length = l.moments.length := by
  rw [history, List.length_zip, List.length_map, Nat.min_eq_right h]

/-- Every request that was taken has one answer. -/
theorem length_answers (t₀ : Timetable) (h : l.Causal) :
    (l.answers t₀).length = l.moments.length := by
  rw [answers, List.length_zip, List.length_map, Timetable.length_serveAll, length_history h,
    Nat.min_eq_right h]

/-- What has been taken off the queue is settled. -/
theorem isPrefix_history (h : l.Causal) (es : List ServiceEvent) :
    l.history <+: (es.foldl record l).history := by
  refine isPrefix_zip ((l.isPrefix_letters es).map Prod.snd) (l.isPrefix_moments es) ?_
  rwa [List.length_map]

/-- The history only grows. -/
theorem le_length_history_foldl {n : Nat} (h : l.Causal) (hn : n ≤ l.history.length)
    (es : List ServiceEvent) : n ≤ (es.foldl record l).history.length :=
  hn.trans (isPrefix_history h es).length_le

/-- No request was taken that did not come. -/
theorem length_history_le_letters (h : l.Causal) : l.history.length ≤ l.letters.length := by
  rw [length_history h]
  exact h

/-- The replies to it are settled, too. -/
theorem isPrefix_answers (t₀ : Timetable) (h : l.Causal) (es : List ServiceEvent) :
    l.answers t₀ <+: (es.foldl record l).answers t₀ := by
  refine isPrefix_zip ((l.isPrefix_letters es).map Prod.fst) ?_ ?_
  · obtain ⟨rest, hrest⟩ := isPrefix_history h es
    rw [← hrest, Timetable.serveAll_append]
    exact List.prefix_append _ _
  · rw [Timetable.length_serveAll, length_history h, List.length_map]
    exact h

section After

variable {n : Nat}

/-- Later events do not change what the first requests make. -/
theorem timetableAfter_foldl (t₀ : Timetable) (h : l.Causal) (hn : n ≤ l.history.length)
    (es : List ServiceEvent) : (es.foldl record l).timetableAfter t₀ n = l.timetableAfter t₀ n := by
  obtain ⟨rest, hrest⟩ := isPrefix_history h es
  rw [timetableAfter, ← hrest, List.take_append_of_le_length hn, timetableAfter]

/-- What is to come does not change the last result of the first requests. -/
theorem latestAfter_foldl (t₀ : Timetable) (h : l.Causal) (hn : n ≤ l.history.length)
    (es : List ServiceEvent) : (es.foldl record l).latestAfter t₀ n = l.latestAfter t₀ n := by
  obtain ⟨rest, hrest⟩ := isPrefix_history h es
  rw [latestAfter, ← hrest, List.take_append_of_le_length hn, latestAfter]

/-- Beyond the history nothing more is served. -/
theorem timetableAfter_of_length_le (t₀ : Timetable) (hn : l.history.length ≤ n) :
    l.timetableAfter t₀ n = (t₀.serveAll l.history).1 := by
  rw [timetableAfter, List.take_of_length_le hn]

/-- One more request changes the latest result if it is a batch. -/
theorem latestAfter_succ {reply : UpdateReply}
    (h : (t₀.serveAll l.history).2[n]? = some reply) :
    l.latestAfter t₀ (n + 1) = (reply.result? <|> l.latestAfter t₀ n) := by
  rw [latestAfter, Timetable.serveAll_take, List.take_add_one, h, ← Timetable.serveAll_take]
  exact lastResult?_concat _ reply

end After

/-- A request that comes into the queue is not part of the reference before it is taken. -/
theorem causal_record_sent (h : l.Causal) (client : Nat) (request : UpdateRequest) :
    (l.record (.sent client request)).Causal := by
  rw [Causal, record, List.length_append]
  exact Nat.le_add_right_of_le h

theorem history_record_sent (h : l.Causal) (client : Nat) (request : UpdateRequest) :
    (l.record (.sent client request)).history = l.history := by
  refine ((isPrefix_history h [.sent client request]).eq_of_length ?_).symm
  exact (length_history h).trans (length_history (causal_record_sent h client request)).symm

theorem answers_record_sent (t₀ : Timetable) (h : l.Causal) (client : Nat)
    (request : UpdateRequest) : (l.record (.sent client request)).answers t₀ = l.answers t₀ := by
  refine ((isPrefix_answers t₀ h [.sent client request]).eq_of_length ?_).symm
  exact (length_answers t₀ h).trans (length_answers t₀ (causal_record_sent h client request)).symm

/-- A request that is taken off the queue is added to the reference. -/
theorem history_record_taken {ticket : Ticket} {request : UpdateRequest} (moment : Int)
    (h : l.letters[l.moments.length]? = some (ticket, request)) :
    (l.record (.taken moment)).history = l.history ++ [(request, moment)] := by
  refine zip_concat moment ?_
  rw [List.getElem?_map]
  exact congrArg (Option.map Prod.snd) h

/-- A request that is taken is answered as by what the ones before it left. -/
theorem answers_record_taken (t₀ : Timetable) {ticket : Ticket} {request : UpdateRequest}
    (hcausal : l.Causal) (moment : Int)
    (h : l.letters[l.moments.length]? = some (ticket, request)) :
    (l.record (.taken moment)).answers t₀ =
      l.answers t₀ ++ [(ticket, ((t₀.serveAll l.history).1.serve moment request).2)] := by
  rw [answers, history_record_taken moment h, Timetable.serveAll_concat]
  refine zip_concat _ ?_
  rw [Timetable.length_serveAll, length_history hcausal, List.getElem?_map]
  exact congrArg (Option.map Prod.fst) h

end Ledger

end Interchange
