import Interchange.Proofs.Timetable.Run
import Interchange.Proofs.Update.Ledger

/-!
# The last reset

What requests make of a timetable depends on the last reset among them and on the batches behind
it. `Ledger.exists_timetableAfter_eq` says so about the requests of a run: if all resets that came
into the queue are among the first `n` requests, what these make is what batches make of the
timetable that the last reset set up.
-/

namespace Interchange

/-! ### The last reset among requests -/

/-- The timetable that a request sets up. -/
def UpdateRequest.seed? : UpdateRequest → Option Timetable
  | .apply _ => none
  | .reset timetable => some timetable

/-- The timetable that the last reset among requests sets up, or the one before them. -/
def lastSeed (t₀ : Timetable) (requests : List UpdateRequest) : Timetable :=
  (requests.filterMap UpdateRequest.seed?).getLast?.getD t₀

section LastSeed

variable {t₀ : Timetable} {requests : List UpdateRequest}

private theorem lastSeed_concat (t₀ : Timetable) (requests : List UpdateRequest)
    (r : UpdateRequest) :
    lastSeed t₀ (requests ++ [r]) = r.seed?.getD (lastSeed t₀ requests) := by
  rw [lastSeed, List.filterMap_append]
  cases r with
  | apply batch => simp [UpdateRequest.seed?, lastSeed]
  | reset timetable => simp [UpdateRequest.seed?]

/-- Requests after the last reset do not matter. -/
private theorem lastSeed_take {n : Nat} (h : ∀ r ∈ requests.drop n, r.seed? = none) :
    lastSeed t₀ (requests.take n) = lastSeed t₀ requests := by
  have hdrop : (requests.drop n).filterMap UpdateRequest.seed? = [] :=
    List.filterMap_eq_nil_iff.mpr h
  have hsplit : requests.filterMap UpdateRequest.seed? =
      (requests.take n).filterMap UpdateRequest.seed? := by
    conv_lhs => rw [← List.take_append_drop n requests, List.filterMap_append, hdrop,
      List.append_nil]
  rw [lastSeed, lastSeed, hsplit]

/-- Serving requests applies batches to what the last reset sets up. -/
private theorem Timetable.exists_serveAll_eq (t₀ : Timetable) (xs : List (UpdateRequest × Int)) :
    ∃ batches, (t₀.serveAll xs).1 = (lastSeed t₀ (xs.map Prod.fst)).applyBatches batches := by
  induction xs using List.reverseRecOn with
  | nil => exact ⟨[], rfl⟩
  | append_singleton xs x ih =>
    obtain ⟨batches, ih⟩ := ih
    obtain ⟨r, moment⟩ := x
    rw [Timetable.serveAll_concat, List.map_append, List.map_singleton, lastSeed_concat, ih]
    cases r with
    | apply batch =>
      refine ⟨batches ++ [(batch, moment)], ?_⟩
      rw [Timetable.applyBatches, Timetable.applyBatches, List.foldl_append]
      rfl
    | reset timetable => exact ⟨[], rfl⟩

end LastSeed

/-! ### Resets in the queue -/

namespace Ledger

variable {t₀ : Timetable} {l : Ledger} {e : ServiceEvent}

/-- The timetable that the last reset in the queue sets up, whether or not it has been handled. -/
def seed (t₀ : Timetable) (l : Ledger) : Timetable := lastSeed t₀ (l.letters.map Prod.snd)

theorem replies_le_record (l : Ledger) (e : ServiceEvent) : l.replies ≤ (l.record e).replies := by
  cases e with
  | replied => exact Nat.le_succ _
  | sent | taken | published | noted | returned | sawTimetable | sawLatest => exact Nat.le_refl _

/-- A reset in the queue is the last one. -/
theorem seed_record_reset (t₀ : Timetable) (l : Ledger) (client : Nat) (timetable : Timetable) :
    (l.record (.sent client (.reset timetable))).seed t₀ = timetable := by
  rw [seed, record, List.map_append]
  exact lastSeed_concat ..

/-- Only putting a reset into the queue changes what the last one is. -/
theorem seed_record (t₀ : Timetable) (l : Ledger)
    (h : ∀ client timetable, e ≠ .sent client (.reset timetable)) :
    (l.record e).seed t₀ = l.seed t₀ := by
  cases e with
  | sent client request =>
    cases request with
    | apply batch =>
      rw [seed, record, List.map_append]
      exact lastSeed_concat ..
    | reset timetable => exact absurd rfl (h client timetable)
  | taken | published | noted | replied | returned | sawTimetable | sawLatest => rfl

/-- No other event puts a reset into the queue. -/
theorem reset_mem_record {ticket : Ticket} {timetable : Timetable}
    (h : ∀ client timetable, e ≠ .sent client (.reset timetable))
    (hmem : (ticket, .reset timetable) ∈ (l.record e).letters) :
    (ticket, .reset timetable) ∈ l.letters := by
  cases e with
  | sent client request =>
    rcases List.mem_append.mp hmem with hmem | hmem
    · exact hmem
    · obtain ⟨-, rfl⟩ := Prod.mk.inj (List.mem_singleton.mp hmem)
      exact absurd rfl (h client timetable)
  | taken | published | noted | replied | returned | sawTimetable | sawLatest => exact hmem

/-- If all resets are among the first `n` requests, these make what batches make of the timetable
that the last reset sets up. -/
theorem exists_timetableAfter_eq (t₀ : Timetable) {es : List ServiceEvent} {n : Nat}
    (hn : n ≤ (ofEvents es).history.length)
    (h : ∀ ticket timetable, (ticket, .reset timetable) ∈ (ofEvents es).letters →
      ticket.number < n) :
    ∃ batches,
      (ofEvents es).timetableAfter t₀ n = ((ofEvents es).seed t₀).applyBatches batches := by
  -- requests are taken in the order of the queue
  have htake : ((ofEvents es).history.take n).map Prod.fst =
      ((ofEvents es).letters.map Prod.snd).take n := by
    obtain ⟨rest, hrest⟩ := isPrefix_map_fst_history (ofEvents es)
    rw [List.map_take, ← hrest, List.take_append_of_le_length]
    rwa [List.length_map]
  -- what comes behind is a batch, since resets have smaller numbers
  have hdrop : ∀ r ∈ ((ofEvents es).letters.map Prod.snd).drop n, r.seed? = none := by
    intro r hr
    cases r with
    | apply batch => rfl
    | reset timetable =>
      obtain ⟨i, hi⟩ := List.mem_iff_getElem?.mp hr
      rw [List.getElem?_drop, List.getElem?_map] at hi
      obtain ⟨⟨ticket, request⟩, hletter, rfl⟩ := Option.map_eq_some_iff.mp hi
      have hnumber : ticket.number = n + i := number_of_getElem?_letters hletter
      have hlt := h ticket timetable (List.mem_of_getElem? hletter)
      omega
  obtain ⟨batches, hbatches⟩ := t₀.exists_serveAll_eq ((ofEvents es).history.take n)
  rw [htake, lastSeed_take hdrop] at hbatches
  exact ⟨batches, hbatches⟩

end Ledger

end Interchange
