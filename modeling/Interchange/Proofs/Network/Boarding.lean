import Interchange.Proofs.Connection.Boarding
import Interchange.Proofs.Network.Build
import Interchange.Proofs.Wire.Times

/-!
# Boarding in a network

A network that is built from a document keeps the limits of its connections far within 32 bits:
the times of targets because they were read from text, and the longest waits because their rules
were checked. Riders are therefore told to board in exact arithmetic, whenever they alight
(`Network.boarding_exact`).
-/

namespace Interchange.Network

open Json

variable {d : Description} {config : Settings} {moment : DateTime} {n : Network}

/-- The limits that connections set in a network built from a document. -/
private theorem limits_of_build {doc : Document} (hdoc : Description.ofJson doc = .ok d)
    (hbuild : build d config moment = .ok n) :
    (∀ c ∈ d.connections, c.targetTime.seconds < maxShort) ∧
      ∀ c ∈ d.connections, ∀ w ∈ c.rule.maxWaitTime, minShort ≤ w ∧ w < maxShort := by
  have htimes := Description.makes_ofJson doc d hdoc
  have hrules := checkRules_eq_ok_iff.mp (of_build hbuild).rules
  constructor
  · intro c hc
    exact Int.lt_of_le_of_lt (htimes c hc).2 (by decide)
  · intro c hc w hw
    obtain ⟨hlo, hhi⟩ := (hrules c hc).maxWaitTime w hw
    exact ⟨Int.le_trans (by decide) hlo, Int.lt_of_le_of_lt hhi (by decide)⟩

/-- **Boarding in exact arithmetic.** In a network built from a document a rider is told to board
exactly if a described connection qualifies, and then the first one, in the order of the
description, of those that leave first. That no sum is cut off holds for every time of alighting
and every usual time to change. -/
theorem boarding_exact {doc : Document} (hdoc : Description.ofJson doc = .ok d)
    (hbuild : build d config moment = .ok n) (settings : Settings) (source : TripPosition)
    (alight : ServiceTime) :
    (n.boarding source alight settings = none ↔
      ∀ c ∈ d.connections, ¬ c.Qualifies source alight.seconds settings.minTransferTime) ∧
    ∀ b, n.boarding source alight settings = some b ↔
      b.earliest = alight.add settings.minTransferTime ∧
        ∃ i, FirstLeast (Connection.Qualifies source alight.seconds settings.minTransferTime)
          (fun c => c.targetTime.seconds) d.connections i b.connection := by
  obtain ⟨htimes, hwaits⟩ := limits_of_build hdoc hbuild
  rw [boarding, (of_build hbuild).connections]
  exact ⟨ConnectionIndex.findBoarding_eq_none_iff htimes hwaits,
    fun b => ConnectionIndex.findBoarding_eq_some_iff htimes hwaits⟩

/-- Of three connections the first leaves too soon for a rider who needs two minutes. The other two
leave at the same time, and the guaranteed one was described before the other. -/
theorem boarding_exact_guaranteed :
    let position (trip : String) : Document :=
      .object [("trip", .scalar (.string trip)), ("stop_pos", .scalar (.number (.integer 0)))] true
    let connection (target time : String) (rule : List (String × Document)) : Document :=
      .object [("source", position "F:A"), ("target", position target),
        ("target_trip_index", .scalar (.number (.integer 0))),
        ("target_time", .scalar (.string time)), ("constraint", .object rule true)] true
    let doc : Document := .object [("constrained_transfers", .array
      [connection "F:B" "08:01" [], connection "F:C" "08:05" [("guaranteed", .scalar (.bool true))],
        connection "F:D" "08:05" []] true)] true
    let source : TripPosition := ⟨⟨"F", "A", by decide⟩, 0⟩
    let c (target : ScopedId) (time : ServiceTime) (guaranteed : Bool) : Connection :=
      ⟨source, ⟨target, 0⟩, 0, time, { guaranteed }⟩
    let cs := [c ⟨"F", "B", by decide⟩ (.hms 8 1 0) false,
      c ⟨"F", "C", by decide⟩ (.hms 8 5 0) true, c ⟨"F", "D", by decide⟩ (.hms 8 5 0) false]
    ∃ d n, Description.ofJson doc = .ok d ∧ d.connections = cs ∧
      build d (.default 1) ⟨2024, 6, 10, 0, 0, 0, 0, by decide, by decide, by decide⟩ = .ok n ∧
      ∃ i, FirstLeast (Connection.Qualifies source 28770 120) (fun c => c.targetTime.seconds) cs i
        (c ⟨"F", "C", by decide⟩ (.hms 8 5 0) true) := by
  intro position connection doc source c cs
  have hdoc : Description.ofJson doc = .ok { connections := cs } := rfl
  have hbuild : build { connections := cs } (.default 1)
    ⟨2024, 6, 10, 0, 0, 0, 0, by decide, by decide, by decide⟩ = .ok
      ⟨[], .empty 0, .ofList cs, [], ⟨2024, 6, 10, 0, 0, 0, 0, by decide, by decide, by decide⟩⟩ :=
    rfl
  obtain ⟨-, hsome⟩ := boarding_exact hdoc hbuild (.default 1) source (.hms 7 59 30)
  obtain ⟨-, hfirst⟩ :=
    (hsome ⟨c ⟨"F", "C", by decide⟩ (.hms 8 5 0) true, .hms 8 1 30⟩).mp (by decide)
  exact ⟨_, _, hdoc, rfl, hbuild, hfirst⟩

end Interchange.Network
