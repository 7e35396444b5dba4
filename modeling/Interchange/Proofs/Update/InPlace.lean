import Interchange.Proofs.Timetable.Failures
import Interchange.Update.Dispatcher

/-!
# Requests served in place

The reference for the dispatcher is a single timetable to which requests are applied in place,
one after the other (`Timetable.serveAll`). The dispatcher works on a copy and publishes it only
if something in the batch succeeded. That is enough: what it publishes is what serving the
request in place makes (`Dispatcher.prepare_fst_getD`), because a batch without a success leaves
the copy as the original.
-/

namespace Interchange

/-! ### The reference -/

namespace Timetable

/-- Serves a request in place. -/
def serve (t : Timetable) (moment : Int) : UpdateRequest → Timetable × UpdateReply
  | .apply batch => ((t.applyBatch batch moment).1, .applied (t.applyBatch batch moment).2)
  | .reset timetable => (timetable, .resetDone)

/-- Serves requests in place, each at its moment. -/
def serveAll (t : Timetable) : List (UpdateRequest × Int) → Timetable × List UpdateReply
  | [] => (t, [])
  | (r, moment) :: rest =>
    let (t', reply) := t.serve moment r
    let (t'', replies) := t'.serveAll rest
    (t'', reply :: replies)

theorem serveAll_cons (t : Timetable) (x : UpdateRequest × Int) (xs : List (UpdateRequest × Int)) :
    t.serveAll (x :: xs) =
      (((t.serve x.2 x.1).1.serveAll xs).1,
        (t.serve x.2 x.1).2 :: ((t.serve x.2 x.1).1.serveAll xs).2) := rfl

theorem serveAll_append (t : Timetable) (xs ys : List (UpdateRequest × Int)) :
    t.serveAll (xs ++ ys) =
      (((t.serveAll xs).1.serveAll ys).1,
        (t.serveAll xs).2 ++ ((t.serveAll xs).1.serveAll ys).2) := by
  induction xs generalizing t with
  | nil => rfl
  | cons x xs ih => rw [List.cons_append, serveAll_cons, serveAll_cons, ih, List.cons_append]

theorem serveAll_concat (t : Timetable) (xs : List (UpdateRequest × Int)) (r : UpdateRequest)
    (moment : Int) :
    t.serveAll (xs ++ [(r, moment)]) =
      (((t.serveAll xs).1.serve moment r).1,
        (t.serveAll xs).2 ++ [((t.serveAll xs).1.serve moment r).2]) :=
  serveAll_append t xs [(r, moment)]

@[simp]
theorem length_serveAll (t : Timetable) (xs : List (UpdateRequest × Int)) :
    (t.serveAll xs).2.length = xs.length := by
  induction xs generalizing t with
  | nil => rfl
  | cons x xs ih => rw [serveAll_cons, List.length_cons, List.length_cons, ih]

/-- The replies to the first requests are the first replies. -/
theorem serveAll_take (t : Timetable) (xs : List (UpdateRequest × Int)) (n : Nat) :
    (t.serveAll (xs.take n)).2 = (t.serveAll xs).2.take n := by
  induction xs generalizing t n with
  | nil => simp [serveAll]
  | cons x xs ih =>
    cases n with
    | zero => rfl
    | succ n => rw [List.take_succ_cons, serveAll_cons, serveAll_cons, List.take_succ_cons, ih]

/-- Each reply is the one to its request on the timetable that the requests before it leave. -/
theorem getElem?_serveAll (t : Timetable) (xs : List (UpdateRequest × Int)) (n : Nat) :
    (t.serveAll xs).2[n]? =
      xs[n]?.map fun x => ((t.serveAll (xs.take n)).1.serve x.2 x.1).2 := by
  induction xs generalizing t n with
  | nil => rfl
  | cons x xs ih =>
    cases n with
    | zero => rfl
    | succ n =>
      rw [serveAll_cons, List.getElem?_cons_succ, List.getElem?_cons_succ, ih,
        List.take_succ_cons, serveAll_cons]

end Timetable

/-! ### The latest result -/

/-- The result of the last batch that the replies are about. -/
def lastResult? (replies : List UpdateReply) : Option BatchResult :=
  (replies.filterMap UpdateReply.result?).getLast?

/-- The last result is that of the last reply that has one. -/
theorem lastResult?_concat (replies : List UpdateReply) (reply : UpdateReply) :
    lastResult? (replies ++ [reply]) = (reply.result? <|> lastResult? replies) := by
  rw [lastResult?, List.filterMap_append]
  cases reply with
  | applied result => simp [UpdateReply.result?]
  | resetDone => simp [UpdateReply.result?, lastResult?]

/-! ### The dispatcher -/

namespace Dispatcher

/-- The reply is worked out on a copy as it would be in place. -/
theorem prepare_snd (d : Dispatcher) (moment : Int) (r : UpdateRequest) :
    (d.prepare moment r).2 = (d.timetable.serve moment r).2 := by
  cases r <;> rfl

/-- **Publishing is serving in place.** A copy that is not published is equal to the original,
since no mutation of the batch has changed it. -/
theorem prepare_fst_getD (d : Dispatcher) (moment : Int) (r : UpdateRequest) :
    (d.prepare moment r).1.getD d.timetable = (d.timetable.serve moment r).1 := by
  cases r with
  | reset timetable => rfl
  | apply batch =>
    by_cases h : 0 < (d.timetable.applyBatch batch moment).2.successful
    · simp [prepare, Timetable.serve, h]
    · have hzero := Nat.eq_zero_of_not_pos h
      rw [Timetable.serve, Timetable.applyBatch_of_successful_eq_zero hzero]
      simp [prepare, hzero]

/-- Handling a request as a whole serves it in place. -/
theorem handle_eq_serve (d : Dispatcher) (moment : Int) (r : UpdateRequest) :
    d.handle moment r =
      (⟨(d.timetable.serve moment r).1, (d.timetable.serve moment r).2.result? <|> d.latest⟩,
        (d.timetable.serve moment r).2) := by
  rw [← prepare_fst_getD, ← prepare_snd]
  rfl

end Dispatcher

end Interchange
