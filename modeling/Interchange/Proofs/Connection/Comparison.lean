import Interchange.Network.Build
import Interchange.Proofs.Connection.Boarding
import Mathlib.Data.List.Forall2

/-!
# Boardings compared

What does a rider lose who arrives later, or whose connections are under stricter rules? A search
that finds a boarding is compared with another one, of which it is only known that it may board
something that leaves no later: then it finds a boarding that leaves no later
(`ConnectionIndex.exists_findBoarding_of_canBoard`).

* **Arriving earlier.** All times that a connection asks for move with the times of the rider, cut
  off or not (`Connection.requiredTime_mono`), so only a limit on the wait can turn a connection
  down for a rider who is there earlier (`boards_no_later`).
* **Relaxing rules.** A rule that asks for less lets the rider board what could be boarded before
  (`Connection.Relaxes.canBoard`). A facilitated connection ignores the usual time to change,
  so that time must not be negative (`ConnectionIndex.relaxing_keeps_boarding`).
-/

namespace Interchange

/-! ### Times that depend on each other -/

namespace ServiceTime

variable {a a' b b' c : ServiceTime} {n n' : Int}

theorem le_trans (hab : a ≤ b) (hbc : b ≤ c) : a ≤ c := Int.le_trans hab hbc

theorem le_latest_left : a ≤ a.latest b := (latest_le_iff.mp (Int.le_refl _)).1

theorem le_latest_right : b ≤ a.latest b := (latest_le_iff.mp (Int.le_refl _)).2

theorem latest_mono (ha : a ≤ a') (hb : b ≤ b') : a.latest b ≤ a'.latest b' :=
  latest_le_iff.mpr ⟨le_trans ha le_latest_left, le_trans hb le_latest_right⟩

/-- Cutting off keeps the order. -/
theorem add_mono (ha : a ≤ a') (hn : n ≤ n') : a.add n ≤ a'.add n' := by
  have hsum : a.seconds + n ≤ a'.seconds + n' := Int.add_le_add ha hn
  exact clampShort_mono hsum

end ServiceTime

/-! ### One connection -/

/-- **Relaxed rules.** The rule `r'` has the priority of `r` and asks the rider for no more: what is
facilitated stays so, and limits are dropped or moved in favour of the rider. -/
structure ConnectionRule.Relaxes (r' r : ConnectionRule) : Prop where
  priority_eq : r'.priority = r.priority
  facilitated : r.isFacilitated = true → r'.isFacilitated = true
  minTransferTime : ∀ n' ∈ r'.minTransferTime, ∃ n ∈ r.minTransferTime, n' ≤ n
  maxWaitTime : ∀ n' ∈ r'.maxWaitTime, ∃ n ∈ r.maxWaitTime, n ≤ n'

namespace Connection

/-- The connection `c'` is `c` under a relaxed rule. -/
structure Relaxes (c' c : Connection) : Prop where
  source_eq : c'.source = c.source
  target_eq : c'.target = c.target
  targetTime_eq : c'.targetTime = c.targetTime
  rule : c'.rule.Relaxes c.rule

variable {c c' : Connection} {alight alight' earliest earliest' : ServiceTime}

/-- What a connection asks for moves with the times of the rider. -/
theorem requiredTime_mono (c : Connection) (halight : alight' ≤ alight)
    (hearliest : earliest' ≤ earliest) :
    c.requiredTime alight' earliest' ≤ c.requiredTime alight earliest := by
  rw [requiredTime, requiredTime]
  cases c.rule.isFacilitated with
  | true => exact halight
  | false =>
    cases c.rule.minTransferTime with
    | none => exact hearliest
    | some n =>
      exact ServiceTime.latest_mono hearliest (ServiceTime.add_mono halight (Int.le_refl n))

/-- Only a limit on the wait can turn down a rider who is there earlier. -/
private theorem canBoard_of_le (h : c.canBoard alight earliest = true) (halight : alight' ≤ alight)
    (hearliest : earliest' ≤ earliest)
    (hwait : ∀ n ∈ c.rule.maxWaitTime, c.targetTime.since alight' ≤ n) :
    c.canBoard alight' earliest' = true := by
  obtain ⟨hrequired, -⟩ := canBoard_iff.mp h
  exact canBoard_iff.mpr
    ⟨ServiceTime.le_trans (c.requiredTime_mono halight hearliest) hrequired, hwait⟩

/-- A rider can board no connection before alighting, unless the usual time to change is
negative. -/
private theorem le_requiredTime (c : Connection) (h : alight ≤ earliest) :
    alight ≤ c.requiredTime alight earliest := by
  rw [requiredTime]
  cases c.rule.isFacilitated with
  | true => exact Int.le_refl _
  | false =>
    cases c.rule.minTransferTime with
    | none => exact h
    | some n => exact ServiceTime.le_trans h ServiceTime.le_latest_left

namespace Relaxes

/-- A relaxed rule does not ask for a later departure. -/
private theorem requiredTime_le (h : c'.Relaxes c) (hslack : alight ≤ earliest) :
    c'.requiredTime alight earliest ≤ c.requiredTime alight earliest := by
  cases hfacilitated' : c'.rule.isFacilitated with
  | true =>
    -- a facilitated connection asks for the least that any connection asks for
    have hrequired' : c'.requiredTime alight earliest = alight := if_pos hfacilitated'
    rw [hrequired']
    exact c.le_requiredTime hslack
  | false =>
    have hfacilitated : c.rule.isFacilitated = false := by
      rw [← Bool.not_eq_true]
      intro hfacilitated
      rw [h.rule.facilitated hfacilitated] at hfacilitated'
      cases hfacilitated'
    rw [requiredTime, requiredTime, hfacilitated', hfacilitated]
    cases hmin' : c'.rule.minTransferTime with
    | none =>
      cases c.rule.minTransferTime with
      | none => exact Int.le_refl _
      | some n => exact ServiceTime.le_latest_left
    | some n' =>
      obtain ⟨n, hmin, hle⟩ := h.rule.minTransferTime n' hmin'
      rw [Option.mem_def.mp hmin]
      exact ServiceTime.latest_mono (Int.le_refl _) (ServiceTime.add_mono (Int.le_refl _) hle)

/-- What could be boarded can be boarded under a relaxed rule. -/
theorem canBoard (h : c'.Relaxes c) (hslack : alight ≤ earliest)
    (hboard : c.canBoard alight earliest = true) : c'.canBoard alight earliest = true := by
  obtain ⟨hrequired, hwait⟩ := canBoard_iff.mp hboard
  rw [canBoard_iff, h.targetTime_eq]
  refine ⟨ServiceTime.le_trans (h.requiredTime_le hslack) hrequired, fun n' hn' => ?_⟩
  obtain ⟨n, hn, hle⟩ := h.rule.maxWaitTime n' hn'
  exact Int.le_trans (hwait n hn) hle

end Relaxes

end Connection

/-! ### The search -/

namespace ConnectionIndex

variable {index : ConnectionIndex} {source : TripPosition} {alight earliest : ServiceTime}
  {c : Connection} {b : Boarding}

/-- The boarding that is found is the first of the soonest among those that can be boarded. -/
theorem findBoarding_eq_argmin (index : ConnectionIndex) (source : TripPosition)
    (alight earliest : ServiceTime) :
    index.findBoarding source alight earliest =
      (((index.lookup source).filter fun c => c.canBoard alight earliest).argmin
        fun c => c.targetTime.seconds).map (⟨·, earliest⟩) := by
  rw [findBoarding, foldl_sooner fun c => c.canBoard alight earliest]

/-- What is boarded leaves at the source and can be boarded. -/
private theorem of_findBoarding (h : index.findBoarding source alight earliest = some b) :
    b.connection ∈ index.lookup source ∧ b.connection.canBoard alight earliest = true := by
  rw [findBoarding_eq_argmin, Option.map_eq_some_iff] at h
  obtain ⟨c, hc, rfl⟩ := h
  exact List.mem_filter.mp (List.argmin_mem hc)

/-- **Comparing.** Whatever can be boarded, something is boarded that leaves no later. -/
theorem exists_findBoarding_of_canBoard (hc : c ∈ index.lookup source)
    (hboard : c.canBoard alight earliest = true) :
    ∃ b, index.findBoarding source alight earliest = some b ∧ b.time ≤ c.targetTime := by
  have hmem : c ∈ (index.lookup source).filter fun c => c.canBoard alight earliest :=
    List.mem_filter.mpr ⟨hc, hboard⟩
  rw [findBoarding_eq_argmin]
  cases hmin : ((index.lookup source).filter fun c => c.canBoard alight earliest).argmin
      fun c => c.targetTime.seconds with
  | none =>
    rw [List.argmin_eq_none.mp hmin] at hmem
    cases hmem
  | some m => exact ⟨⟨m, earliest⟩, rfl, List.le_of_mem_argmin hmem hmin⟩

/-! ### Relaxing rules -/

/-- What is found under a source is found there relaxed when the rules are relaxed. -/
private theorem exists_mem_lookup_of_relaxes {cs cs' : List Connection}
    (h : List.Forall₂ (fun c c' => c'.Relaxes c) cs cs') (hc : c ∈ (ofList cs).lookup source) :
    ∃ c' ∈ (ofList cs').lookup source, c'.Relaxes c := by
  rw [lookup_ofList, List.mem_filter, Bool.and_eq_true, Bool.not_eq_true', decide_eq_true_eq] at hc
  obtain ⟨hmem, hallowed, hsource⟩ := hc
  obtain ⟨i, hi, rfl⟩ := List.getElem_of_mem hmem
  have hi' : i < cs'.length := h.length_eq ▸ hi
  have hrelaxes : cs'[i].Relaxes cs[i] := h.get hi hi'
  have hallowed' : cs'[i].rule.isNotAllowed = false := by
    rw [← hallowed, ConnectionRule.isNotAllowed, ConnectionRule.isNotAllowed,
      hrelaxes.rule.priority_eq]
  have hsource' : cs'[i].source = source := hrelaxes.source_eq.trans hsource
  refine ⟨cs'[i], ?_, hrelaxes⟩
  rw [lookup_ofList, List.mem_filter]
  exact ⟨List.getElem_mem hi', by simp [hallowed', hsource']⟩

/-- **Relaxing rules.** If all connections are put under relaxed rules, a rider who could board
still can, and the boarding leaves no later. The usual time to change must not be negative: it is
waived by a guarantee, which would then ask for more and not for less. -/
theorem relaxing_keeps_boarding {cs cs' : List Connection}
    (h : List.Forall₂ (fun c c' => c'.Relaxes c) cs cs') (hslack : alight ≤ earliest)
    (hb : (ofList cs).findBoarding source alight earliest = some b) :
    ∃ b', (ofList cs').findBoarding source alight earliest = some b' ∧ b'.time ≤ b.time := by
  obtain ⟨hmem, hboard⟩ := of_findBoarding hb
  obtain ⟨c', hmem', hrelaxes⟩ := exists_mem_lookup_of_relaxes h hmem
  obtain ⟨b', hb', hle⟩ := exists_findBoarding_of_canBoard hmem' (hrelaxes.canBoard hslack hboard)
  rw [hrelaxes.targetTime_eq] at hle
  exact ⟨b', hb', hle⟩

/-- A rider who alights at ten cannot board at a minute past, since the rule asks for five minutes,
and waits for the next. Once the first connection is guaranteed it is boarded, although it keeps its
time to change and its limit on the wait; the second one may ask for less and let riders wait for
longer. -/
theorem relaxing_keeps_boarding_guaranteed :
    let source : TripPosition := ⟨⟨"F", "A", by decide⟩, 2⟩
    let c (target : ScopedId) (time : ServiceTime) (rule : ConnectionRule) : Connection :=
      ⟨source, ⟨target, 0⟩, 0, time, rule⟩
    let soon (rule : ConnectionRule) := c ⟨"F", "B", by decide⟩ (.hms 10 1 0) rule
    let next (rule : ConnectionRule) := c ⟨"F", "C", by decide⟩ (.hms 10 5 0) rule
    let cs := [soon { minTransferTime := some 300, maxWaitTime := some 600 },
      next { minTransferTime := some 300, maxWaitTime := some 300 }]
    let cs' := [soon { guaranteed := true, minTransferTime := some 300, maxWaitTime := some 600 },
      next { maxWaitTime := some 900 }]
    (ofList cs).findBoarding source (.hms 10 0 0) (.hms 10 2 0) = some ⟨cs[1], .hms 10 2 0⟩ ∧
      List.Forall₂ (fun c c' => c'.Relaxes c) cs cs' ∧
      ∃ b', (ofList cs').findBoarding source (.hms 10 0 0) (.hms 10 2 0) = some b' ∧
        b'.time ≤ .hms 10 5 0 := by
  intro source c soon next cs cs'
  have hboarding : (ofList cs).findBoarding source (.hms 10 0 0) (.hms 10 2 0) =
      some ⟨cs[1], .hms 10 2 0⟩ := by decide
  have hsoon : cs'[0].Relaxes cs[0] :=
    ⟨rfl, rfl, rfl, rfl, fun _ => rfl, fun n hn => ⟨n, hn, Int.le_refl n⟩,
      fun n hn => ⟨n, hn, Int.le_refl n⟩⟩
  have hnext : cs'[1].Relaxes cs[1] := by
    refine ⟨rfl, rfl, rfl, rfl, fun h => h, fun n hn => absurd hn (Option.not_mem_none n),
      fun n hn => ⟨300, rfl, ?_⟩⟩
    obtain rfl : 900 = n := Option.some.inj hn
    decide
  have hrelaxes : List.Forall₂ (fun c c' => c'.Relaxes c) cs cs' :=
    .cons hsoon (.cons hnext .nil)
  exact ⟨hboarding, hrelaxes, relaxing_keeps_boarding hrelaxes (by decide) hboarding⟩

end ConnectionIndex

/-! ### Arriving earlier -/

/-- **Arriving earlier.** If a rider is told to board a connection, and would not have to wait for
it too long when alighting earlier, then a rider who alights earlier boards something that leaves no
later. In a network the time to board moves with the time of alighting. -/
theorem boards_no_later {alight alight' : ServiceTime} (halight : alight' ≤ alight) {b : Boarding}
    (hwait : ∀ n ∈ b.connection.rule.maxWaitTime, b.connection.targetTime.since alight' ≤ n)
    (source : TripPosition) :
    (∀ (index : ConnectionIndex) (earliest earliest' : ServiceTime), earliest' ≤ earliest →
      index.findBoarding source alight earliest = some b →
      ∃ b', index.findBoarding source alight' earliest' = some b' ∧
        b'.time ≤ b.connection.targetTime) ∧
    ∀ (n : Network) (settings : Settings), n.boarding source alight settings = some b →
      ∃ b', n.boarding source alight' settings = some b' ∧
        b'.time ≤ b.connection.targetTime := by
  have hsearch : ∀ (index : ConnectionIndex) (earliest earliest' : ServiceTime),
      earliest' ≤ earliest → index.findBoarding source alight earliest = some b →
      ∃ b', index.findBoarding source alight' earliest' = some b' ∧
        b'.time ≤ b.connection.targetTime := by
    intro index earliest earliest' hearliest hb
    obtain ⟨hmem, hboard⟩ := ConnectionIndex.of_findBoarding hb
    exact ConnectionIndex.exists_findBoarding_of_canBoard hmem
      (Connection.canBoard_of_le hboard halight hearliest hwait)
  refine ⟨hsearch, fun n settings hb => ?_⟩
  exact hsearch n.connections _ _ (ServiceTime.add_mono halight (Int.le_refl _)) hb

/-- A rider who alights at ten is too late for the first of two connections, with two minutes to
change, and boards the second. One who alights four minutes before boards the first, although the
second could be waited for. -/
theorem boards_no_later_four_minutes :
    let source : TripPosition := ⟨⟨"F", "A", by decide⟩, 2⟩
    let first : Connection := ⟨source, ⟨⟨"F", "B", by decide⟩, 0⟩, 0, .hms 10 1 0, .regular⟩
    let second : Connection := ⟨source, ⟨⟨"F", "C", by decide⟩, 0⟩, 0, .hms 10 5 0,
      { guaranteed := true, maxWaitTime := some 600 }⟩
    let index := ConnectionIndex.ofList [second, first]
    let n : Network := ⟨[], .empty 0, index, [],
      ⟨2024, 6, 10, 0, 0, 0, 0, by decide, by decide, by decide⟩⟩
    index.findBoarding source (.hms 10 0 0) (.hms 10 2 0) = some ⟨second, .hms 10 2 0⟩ ∧
      ServiceTime.since (.hms 10 5 0) (.hms 9 56 0) ≤ 600 ∧
      (∃ b', index.findBoarding source (.hms 9 56 0) (.hms 9 58 0) = some b' ∧
        b'.time ≤ .hms 10 5 0) ∧
      ∃ b', n.boarding source (.hms 9 56 0) (.default 1) = some b' ∧ b'.time ≤ .hms 10 5 0 := by
  intro source first second index n
  have hboarding : index.findBoarding source (.hms 10 0 0) (.hms 10 2 0) =
      some ⟨second, .hms 10 2 0⟩ := by decide
  have hwait : ∀ n ∈ second.rule.maxWaitTime, second.targetTime.since (.hms 9 56 0) ≤ n := by
    intro n hn
    obtain rfl : 600 = n := Option.some.inj hn
    decide
  have halight : ServiceTime.hms 9 56 0 ≤ .hms 10 0 0 := by decide
  obtain ⟨hsearch, hnetwork⟩ := boards_no_later halight (b := ⟨second, .hms 10 2 0⟩) hwait source
  exact ⟨hboarding, by decide, hsearch index _ _ (by decide) hboarding,
    hnetwork n (.default 1) hboarding⟩

end Interchange
