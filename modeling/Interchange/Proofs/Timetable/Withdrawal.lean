import Interchange.Proofs.Timetable.Rerouting
import Interchange.Proofs.Timetable.Steps
import Mathlib.Data.List.Basic
import Mathlib.Order.MinMax

/-!
# Trips out of service

Cancelling and deleting take a trip out of service, and only rerouting brings it back. What a
step can do to the state of a trip is listed in `Step.Transition`. Without a reroute the trip goes
further out of service or stays where it is: a deleted trip is further out than a cancelled one,
and how far out the trip is (`severity`) becomes the greatest of what it was and what the mutations
ask for. So the state that is left does not depend on their order
(`Timetable.Path.le_severity_iff`), and no more than two of them can have an effect
(`Timetable.Path.add_countP_withdraws_le`).
-/

namespace Interchange

/-- The state of the trip under a key, if there is one. -/
def Timetable.state? (t : Timetable) (key : ScopedId) : Option TripState :=
  (t.trip? key).map LiveTrip.state

/-- How far out of service a state is. -/
def severity : Option TripState → Nat
  | some .canceled => 1
  | some .deleted => 2
  | _ => 0

private theorem severity_le_two (state : Option TripState) : severity state ≤ 2 := by
  rcases state with - | (_ | _ | _ | _ | _ | _) <;> decide

private theorem two_le_severity_iff {state : Option TripState} :
    2 ≤ severity state ↔ state = some .deleted := by
  rcases state with - | (_ | _ | _ | _ | _ | _) <;> decide

private theorem one_le_severity_iff {state : Option TripState} :
    1 ≤ severity state ↔ state = some .canceled ∨ state = some .deleted := by
  rcases state with - | (_ | _ | _ | _ | _ | _) <;> decide

/-- The check for an effect: a trip can only be taken further out of service. -/
private theorem severity_lt_iff {old state : TripState} (h : state = .canceled ∨ state = .deleted) :
    severity (some old) < severity (some state) ↔ ¬ (old = state ∨ old = .deleted) := by
  rcases h with rfl | rfl <;> cases old <;> decide

namespace Step

/-! ### What a step does to a state -/

/-- The state that a step asks for, if it takes the trip under a key out of service. -/
def withdrawal? (s : Step) (key : ScopedId) : Option TripState :=
  if s.before.resolve s.mutation.trip = some key then s.mutation.withdrawal? else none

/-- The step takes the trip under a key out of service, and there is nothing to warn of. -/
def withdraws (key : ScopedId) (s : Step) : Bool :=
  (s.withdrawal? key).isSome && s.outcome = .ok []

/-- **Transitions.** What a step can do to the state of the trip under a key. -/
inductive Transition (s : Step) (key : ScopedId) : Option TripState → Option TripState → Prop
  /-- It is taken out of service, or further out -/
  | withdrawn {old state : TripState} (kind : s.withdrawal? key = some state)
      (fresh : ¬ (old = state ∨ old = .deleted)) (outcome : s.outcome = .ok []) :
      Transition s key (some old) (some state)
  /-- It is as far out already -/
  | alreadyWithdrawn {old state : TripState} (kind : s.withdrawal? key = some state)
      (beyond : old = state ∨ old = .deleted) (outcome : s.outcome = .ok [.noOpCancellation])
      (same : s.after = s.before) : Transition s key (some old) (some old)
  /-- It is brought back -/
  | rerouted {old new : TripState} (kind : s.before.rerouted? s.mutation = some key)
      (back : new = .updated ∨ new = .modified) : Transition s key (some old) (some new)
  /-- It comes into being -/
  | added (kind : s.before.added? s.mutation = some key) (idle : s.withdrawal? key = none) :
      Transition s key none (some .added)
  /-- The step is about something else, or fails -/
  | unchanged {state : Option TripState} (idle : s.withdrawal? key = none) :
      Transition s key state state

variable {s : Step} {key : ScopedId} {state : TripState}

private theorem withdrawal?_eq_some_iff :
    s.withdrawal? key = some state ↔
      s.before.resolve s.mutation.trip = some key ∧ s.mutation.withdrawal? = some state := by
  rw [withdrawal?]
  split_ifs with h <;> simp [h]

private theorem eq_of_withdrawal? (h : s.withdrawal? key = some state) :
    state = .canceled ∨ state = .deleted :=
  Mutation.eq_of_withdrawal? (withdrawal?_eq_some_iff.mp h).2

/-- A step that takes a trip out of service has found it, so it cannot fail. -/
private theorem transition_of_withdrawal? (h : s.withdrawal? key = some state) :
    s.Transition key (s.before.state? key) (s.after.state? key) := by
  obtain ⟨hkey, hkind⟩ := withdrawal?_eq_some_iff.mp h
  obtain ⟨live, hlive⟩ := Timetable.exists_trip?_of_resolve hkey
  have hbefore : s.before.state? key = some live.state := by rw [Timetable.state?, hlive]; rfl
  by_cases hold : live.state = state ∨ live.state = .deleted
  · have happly := Timetable.apply_of_succeeds (.alreadyWithdrawn hkind hkey hlive hold)
    have hsame : s.after = s.before := congrArg Prod.fst happly
    rw [hsame, hbefore]
    exact .alreadyWithdrawn h hold (congrArg Prod.snd happly) hsame
  · have happly := Timetable.apply_of_succeeds (.withdrawn hkind hkey hlive hold)
    have hafter : s.after.state? key = some state := by
      rw [after, happly, Timetable.state?, Timetable.trip?_modifyTrip, if_pos rfl, hlive]
      rfl
    rw [hbefore, hafter]
    exact .withdrawn h hold (congrArg Prod.snd happly)

/-- Every step is a transition of every trip, and in most cases nothing happens to it. -/
theorem transition (s : Step) (key : ScopedId) :
    s.Transition key (s.before.state? key) (s.after.state? key) := by
  cases hwithdrawal : s.withdrawal? key with
  | some state => exact transition_of_withdrawal? hwithdrawal
  | none =>
    obtain ⟨t, m⟩ := s
    by_cases htarget : t.target? m = some key
    · rcases Timetable.apply_cases t m with ⟨e, hm⟩ | ⟨t', warnings, hm, hs⟩
      · rw [after, hm]
        exact .unchanged hwithdrawal
      have hafter : after ⟨t, m⟩ = t' := by rw [after, hm]
      have hok : (t.apply m).2 = .ok warnings := by rw [hm]
      rw [hafter]
      cases hs with
      | withdrawn hkind hfound =>
        -- this would be a withdrawal of the trip itself, which is ruled out here
        rw [Timetable.target?_eq_resolve (Mutation.isAddition_of_withdrawal? hkind)] at htarget
        rw [withdrawal?_eq_some_iff.mpr ⟨htarget, hkind⟩] at hwithdrawal
        cases hwithdrawal
      | alreadyWithdrawn => exact .unchanged hwithdrawal
      | @rerouted id _ calls live hfound hlive =>
        obtain rfl := Option.some.inj (htarget.symm.trans hfound)
        have hkind : t.rerouted? (.reroute id calls) = some key :=
          (Timetable.rerouted?_of_ok hok).trans hfound
        rw [Timetable.state?, Timetable.state?, Timetable.trip?_modifyTrip, if_pos rfl, hlive]
        refine .rerouted hkind ?_
        split_ifs
        · exact .inl rfl
        · exact .inr rfl
      | @added trip calls hfresh =>
        obtain ⟨-, rfl⟩ := Timetable.target?_addTrip_eq_some htarget
        rw [Timetable.state?, Timetable.state?, Timetable.trip?_putTrip, if_pos rfl, hfresh]
        exact .added (Timetable.added?_of_ok hok) hwithdrawal
    · have hsame : (t.apply m).1.state? key = t.state? key :=
        congrArg (Option.map LiveTrip.state) (Timetable.trip?_apply_of_ne htarget)
      rw [after, hsame]
      exact .unchanged hwithdrawal

/-! ### Rules -/

section Rules

variable {old new : Option TripState}

/-- A trip is as scheduled, or counts as added, only if it was so before or comes into being. -/
private theorem Transition.of_original (h : s.Transition key old new) (hnew : new = some state)
    (horiginal : state = .scheduled ∨ state = .added) :
    old = some state ∨ state = .added ∧ old = none ∧ s.before.added? s.mutation = some key := by
  cases h with
  | withdrawn hkind =>
    obtain rfl := Option.some.inj hnew
    rcases eq_of_withdrawal? hkind with rfl | rfl <;> rcases horiginal with h | h <;> cases h
  | alreadyWithdrawn => exact .inl hnew
  | rerouted _ hback =>
    obtain rfl := Option.some.inj hnew
    rcases hback with rfl | rfl <;> rcases horiginal with h | h <;> cases h
  | added hkind => exact .inr ⟨(Option.some.inj hnew).symm, rfl, hkind⟩
  | unchanged => exact .inl hnew

/-- Only a rerouting brings a deleted trip back. -/
private theorem Transition.of_deleted (h : s.Transition key old new) (hold : old = some .deleted) :
    new = some .deleted ∨ s.before.rerouted? s.mutation = some key := by
  cases h with
  | withdrawn _ hfresh => exact absurd (.inr (Option.some.inj hold)) hfresh
  | alreadyWithdrawn => exact .inl hold
  | rerouted hkind => exact .inr hkind
  | added => cases hold
  | unchanged => exact .inl hold

/-- A cancelled trip can be rerouted or deleted, and otherwise stays as it is. -/
private theorem Transition.of_canceled (h : s.Transition key old new)
    (hold : old = some .canceled) :
    new = some .canceled ∨ s.before.rerouted? s.mutation = some key ∨
      s.withdrawal? key = some .deleted ∧ s.outcome = .ok [] ∧ new = some .deleted := by
  cases h with
  | @withdrawn _ state hkind hfresh houtcome =>
    obtain rfl := Option.some.inj hold
    rcases eq_of_withdrawal? hkind with rfl | rfl
    · exact absurd (.inl rfl) hfresh
    · exact .inr (.inr ⟨hkind, houtcome, rfl⟩)
  | alreadyWithdrawn => exact .inl hold
  | rerouted hkind => exact .inr (.inl hkind)
  | added => cases hold
  | unchanged => exact .inl hold

/-- Without a reroute, the trip is as far out of service as it was, or as it is asked to be. -/
private theorem Transition.severity_eq (h : s.Transition key old new)
    (hroute : s.before.rerouted? s.mutation ≠ some key) :
    severity new = max (severity old) (severity (s.withdrawal? key)) := by
  cases h with
  | @withdrawn _ state hkind hfresh =>
    have hstate := eq_of_withdrawal? hkind
    have hlt := (severity_lt_iff hstate).mpr hfresh
    rw [hkind, max_eq_right hlt.le]
  | @alreadyWithdrawn old state hkind hbeyond =>
    have hstate := eq_of_withdrawal? hkind
    have hle : severity (some state) ≤ severity (some old) := by
      by_contra hlt
      exact (severity_lt_iff hstate).mp (not_le.mp hlt) hbeyond
    rw [hkind, max_eq_left hle]
  | rerouted hkind => exact absurd hkind hroute
  | added _ hidle =>
    rw [hidle]
    rfl
  | unchanged hidle =>
    rw [hidle]
    exact (Nat.max_zero _).symm

private theorem withdraws_of_idle (h : s.withdrawal? key = none) : s.withdraws key = false := by
  rw [withdraws, h]
  rfl

/-- A withdrawal with an effect takes the trip further out of service. -/
private theorem Transition.add_withdraws_le (h : s.Transition key old new)
    (hroute : s.before.rerouted? s.mutation ≠ some key) :
    severity old + (if s.withdraws key then 1 else 0) ≤ severity new := by
  cases h with
  | @withdrawn _ state hkind hfresh =>
    have hstate := eq_of_withdrawal? hkind
    have hlt := (severity_lt_iff hstate).mpr hfresh
    split_ifs <;> omega
  | alreadyWithdrawn _ _ houtcome =>
    have hnone : s.withdraws key = false := by
      rw [withdraws, houtcome]
      simp
    simp [hnone]
  | rerouted hkind => exact absurd hkind hroute
  | added _ hidle => simp [withdraws_of_idle hidle, severity]
  | unchanged hidle => simp [withdraws_of_idle hidle]

/-- A withdrawal succeeds, and raises a warning if it has no effect. -/
private theorem Transition.outcome_cases (h : s.Transition key old new)
    (hkind : s.withdrawal? key = some state) :
    s.outcome = .ok [] ∨ s.outcome = .ok [.noOpCancellation] ∧ s.after = s.before := by
  cases h with
  | withdrawn _ _ houtcome => exact .inl houtcome
  | alreadyWithdrawn _ _ houtcome hsame => exact .inr ⟨houtcome, hsame⟩
  | rerouted hrerouted =>
    rw [Timetable.rerouted?_of_withdrawal (withdrawal?_eq_some_iff.mp hkind).2] at hrerouted
    cases hrerouted
  | added _ hidle =>
    rw [hkind] at hidle
    cases hidle
  | unchanged hidle =>
    rw [hkind] at hidle
    cases hidle

end Rules

/-- **Rules.** How the states of the trip under a key are entered and left. -/
structure Lawful (s : Step) (key : ScopedId) : Prop where
  /-- A trip that is not as scheduled will not be again -/
  scheduled : s.after.state? key = some .scheduled → s.before.state? key = some .scheduled
  /-- A trip counts as added from the moment when it is -/
  added : s.after.state? key = some .added →
    s.before.state? key = some .added ∨
      s.before.state? key = none ∧ s.before.added? s.mutation = some key
  /-- A deleted trip can be brought back only by a reroute -/
  deleted : s.before.state? key = some .deleted →
    s.after.state? key = some .deleted ∨ s.before.rerouted? s.mutation = some key
  /-- So can a cancelled one, unless it is deleted -/
  canceled : s.before.state? key = some .canceled →
    s.after.state? key = some .canceled ∨ s.before.rerouted? s.mutation = some key ∨
      s.withdrawal? key = some .deleted ∧ s.outcome = .ok [] ∧ s.after.state? key = some .deleted

/-- Every step keeps to the rules for every trip. -/
theorem lawful (s : Step) (key : ScopedId) : s.Lawful key where
  scheduled := by
    intro hafter
    rcases (s.transition key).of_original hafter (.inl rfl) with hbefore | ⟨hadded, -⟩
    · exact hbefore
    · cases hadded
  added := by
    intro hafter
    rcases (s.transition key).of_original hafter (.inr rfl) with hbefore | ⟨-, hnone, hadded⟩
    · exact .inl hbefore
    · exact .inr ⟨hnone, hadded⟩
  deleted := (s.transition key).of_deleted
  canceled := (s.transition key).of_canceled

end Step

namespace Timetable

variable {t u : Timetable} {key : ScopedId} {steps : List Step}

/-! ### Along a path -/

/-- **Order does not matter.** Without a reroute, a trip ends as far out of service as it was, or
as any of the steps asked for. -/
theorem Path.le_severity_iff (h : t.Path steps u)
    (hroute : ∀ s ∈ steps, s.before.rerouted? s.mutation ≠ some key) (n : Nat) :
    n ≤ severity (u.state? key) ↔
      n ≤ severity (t.state? key) ∨ ∃ s ∈ steps, n ≤ severity (s.withdrawal? key) := by
  induction h with
  | nil => simp
  | note updatedAt _ ih => exact ih hroute
  | @step t _ steps m _ ih =>
    obtain ⟨hm, hsteps⟩ := List.forall_mem_cons.mp hroute
    have hstep : severity ((t.apply m).1.state? key) = _ :=
      (Step.transition ⟨t, m⟩ key).severity_eq hm
    rw [ih hsteps, hstep, le_max_iff, List.exists_mem_cons_iff, or_assoc]

/-- **Effects are few.** Each withdrawal with an effect takes the trip further out of service. -/
theorem Path.add_countP_withdraws_le (h : t.Path steps u)
    (hroute : ∀ s ∈ steps, s.before.rerouted? s.mutation ≠ some key) :
    severity (t.state? key) + steps.countP (Step.withdraws key) ≤ severity (u.state? key) := by
  induction h with
  | nil => exact le_rfl
  | note updatedAt _ ih => exact ih hroute
  | @step t _ steps m _ ih =>
    obtain ⟨hm, hsteps⟩ := List.forall_mem_cons.mp hroute
    have hstep : severity (t.state? key) + (if Step.withdraws key ⟨t, m⟩ then 1 else 0) ≤
        severity ((t.apply m).1.state? key) :=
      (Step.transition ⟨t, m⟩ key).add_withdraws_le hm
    have hrest := ih hsteps
    rw [List.countP_cons]
    omega

/-- **Settlement.** What the attempts to take a trip out of service come to, along steps from `t` to
`u`. -/
structure Settles (key : ScopedId) (t : Timetable) (steps : List Step) (u : Timetable) : Prop where
  /-- No more than two of them have an effect -/
  effects : steps.countP (Step.withdraws key) ≤ 2
  /-- The others change nothing, and say so -/
  others : ∀ s ∈ steps, (s.withdrawal? key).isSome → s.withdraws key = false →
    s.outcome = .ok [.noOpCancellation] ∧ s.after = s.before
  /-- After any of them the trip is deleted if it was or one of them deletes it, else cancelled -/
  final : (∃ s ∈ steps, (s.withdrawal? key).isSome) →
    u.state? key = some (if t.state? key = some .deleted ∨
      ∃ s ∈ steps, s.withdrawal? key = some .deleted then .deleted else .canceled)

/-- From step to step, a trip that is not rerouted is only taken further out of service. -/
theorem Path.settles (h : t.Path steps u)
    (hroute : ∀ s ∈ steps, s.before.rerouted? s.mutation ≠ some key) : Settles key t steps u where
  effects := by
    have hcount := h.add_countP_withdraws_le hroute
    have htwo := severity_le_two (u.state? key)
    omega
  others := by
    intro s _ hsome hnot
    obtain ⟨state, hkind⟩ := Option.isSome_iff_exists.mp hsome
    rcases (s.transition key).outcome_cases hkind with houtcome | hnoOp
    · simp [Step.withdraws, hsome, houtcome] at hnot
    · exact hnoOp
  final := by
    rintro ⟨s, hs, hsome⟩
    obtain ⟨state, hkind⟩ := Option.isSome_iff_exists.mp hsome
    have hstate := Step.eq_of_withdrawal? hkind
    -- one withdrawal makes it cancelled at least, and only a deletion makes it more than that
    have hone : 1 ≤ severity (u.state? key) := by
      refine (h.le_severity_iff hroute 1).mpr (.inr ⟨s, hs, ?_⟩)
      rw [hkind, one_le_severity_iff]
      exact hstate.imp (congrArg some) (congrArg some)
    have htwo := h.le_severity_iff hroute 2
    simp only [two_le_severity_iff] at htwo
    split_ifs with hdeleted
    · exact htwo.mpr hdeleted
    · exact (one_le_severity_iff.mp hone).resolve_right fun hu => hdeleted (htwo.mp hu)

/-! ### All together -/

/-- **Cancellation.** Every step keeps the rules. Runs and batches are paths, and whatever the
order of their steps, along every path that does not reroute a trip its withdrawals settle. -/
theorem withdrawals (key : ScopedId) :
    (∀ s : Step, s.Lawful key) ∧
      (∀ t ms, Path t (t.steps ms) (t.applyAll ms).1) ∧
      (∀ t batches, Path t (t.stepsOfBatches batches) (t.applyBatches batches)) ∧
      ∀ t steps u, Path t steps u →
        (∀ s ∈ steps, s.before.rerouted? s.mutation ≠ some key) → Settles key t steps u :=
  ⟨fun s => s.lawful key, path_steps, path_stepsOfBatches, fun _ _ _ h hroute => h.settles hroute⟩

/-- The night line is cancelled by its realtime id, which an express then takes over. It is deleted
after that, by its own id, and another cancellation does not change this. -/
theorem withdrawals_night_express :
    let night : Trip := ⟨⟨"F", "N", by decide⟩, ⟨"F", "R", by decide⟩, some "rt", none⟩
    let express : Trip := ⟨⟨"F", "E", by decide⟩, ⟨"F", "R", by decide⟩, some "rt", none⟩
    let calls : List Call := [⟨0, 1, .hms 8 0 0, .hms 8 0 0⟩, ⟨1, 2, .hms 8 5 0, .hms 8 5 0⟩]
    let rt : ScopedId := ⟨"F", "rt", by decide⟩
    let t := seed 2 [⟨night, calls⟩]
    let ms : List Mutation :=
      [.cancel rt, .addTrip express calls, .cancel rt, .delete night.id, .cancel night.id]
    (∀ s ∈ t.steps ms, s.before.rerouted? s.mutation ≠ some night.id) ∧
      (t.steps ms).countP (Step.withdraws night.id) ≤ 2 ∧
      (t.applyAll ms).1.state? night.id = some .deleted := by
  intro night express calls rt t ms
  have hroute : ∀ s ∈ t.steps ms, s.before.rerouted? s.mutation ≠ some night.id := by decide
  have hsome : ∃ s ∈ t.steps ms, (s.withdrawal? night.id).isSome := by decide
  have hdeleted : ∃ s ∈ t.steps ms, s.withdrawal? night.id = some .deleted := by decide
  obtain ⟨-, hruns, -, hsettles⟩ := withdrawals night.id
  have hsettled := hsettles t (t.steps ms) _ (hruns t ms) hroute
  refine ⟨hroute, hsettled.effects, ?_⟩
  rw [hsettled.final hsome, if_pos (.inr hdeleted)]

end Timetable

end Interchange
