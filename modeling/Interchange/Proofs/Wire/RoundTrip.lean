import Interchange.Proofs.Timetable.Positions
import Interchange.Proofs.Wire.Texts
import Interchange.Wire.Connection
import Interchange.Wire.Update

/-!
# Round trips of updates and rules

Batches of mutations, scheduled trips and connections are read back from their texts, whatever
characters their strings have, if all their times can be read; if one of the times is outside the
two days that can be read, the text is refused (`roundTrips`). Times are the only parts that can
be written and not read.

For each form there is one lemma that says what is read back and under which condition. The
numbers have to fit the widths that they have in the system (`Fits`).
-/

namespace Interchange

open Json

/-! ### Trips and calls -/

theorem Trip.readsBack_toJson (t : Trip) : ReadsBack Trip.ofJson t.toJson t True := by
  have hnullable : ∀ o : Option String,
      ReadsBack (decodeNullable decodeString) (.nullable .string o) o True :=
    fun o => readsBack_nullable_true (fun s _ => readsBack_string s) (by simp)
  -- the fields as they are declared; what remains is that each name occurs once
  refine (Fields.ReadsBack.seq (.seq (.seq (.map Trip.mk (.required t.id.readsBack_toJson ?_))
    (.required t.routeId.readsBack_toJson ?_)) (.optional (hnullable t.realtimeTripId) ?_))
    (.optional (hnullable t.longName) ?_)).decode.congr (by simp)
  all_goals simp

namespace Call

/-- The numbers of the call have their widths. -/
structure Fits (c : Call) : Prop where
  stop : c.stop < countLimit
  sequence : c.sequence < shortCountLimit

/-- The times in a call. -/
def times (c : Call) : List ServiceTime := [c.arrival, c.departure]

/-- Calls come back if their times can be read. -/
theorem readsBack_toJson {c : Call} (h : c.Fits) :
    ReadsBack ofJson c.toJson c (∀ t ∈ c.times, t.Readable) := by
  refine (Fields.ReadsBack.seq (.seq (.seq (.map Call.mk (.required (readsBack_count h.stop) ?_))
    (.required (readsBack_shortCount h.sequence) ?_))
    (.required c.arrival.readsBack_toJson ?_))
    (.required c.departure.readsBack_toJson ?_)).decode.congr (by simp [times])
  all_goals simp

/-- The times in several calls. -/
def allTimes (cs : List Call) : List ServiceTime := cs.flatMap times

theorem readsBack_list {cs : List Call} (h : ∀ c ∈ cs, c.Fits) :
    ReadsBack (decodeList ofJson) (.list toJson cs) cs (∀ t ∈ allTimes cs, t.Readable) := by
  refine (Json.readsBack_list fun c hc => readsBack_toJson (h c hc)).congr ?_
  simp only [allTimes, List.forall_mem_flatMap]

end Call

/-- A scheduled trip comes back if the times of all its calls can be read. -/
theorem ScheduledTrip.readsBack_toJson {s : ScheduledTrip} (h : ∀ c ∈ s.calls, c.Fits) :
    ReadsBack ScheduledTrip.ofJson s.toJson s (∀ t ∈ Call.allTimes s.calls, t.Readable) := by
  refine (Fields.ReadsBack.seq (.map ScheduledTrip.mk (.required s.trip.readsBack_toJson ?_))
    (.required (Call.readsBack_list h) ?_)).decode.congr (by simp)
  all_goals simp

/-! ### Mutations

What stands beside the tag can be put aside, as nothing in it is nested deeply. -/

theorem ScopedId.readable_toJson (id : ScopedId) :
    id.toJson.toDocument.readable asideDepth = true := rfl

private theorem Trip.readable_toJson (t : Trip) :
    t.toJson.toDocument.readable asideDepth = true := by
  obtain ⟨id, routeId, realtimeTripId, longName⟩ := t
  cases realtimeTripId <;> cases longName <;> rfl

private theorem Call.readable_list (cs : List Call) :
    (Value.list toJson cs).toDocument.readable asideDepth = true :=
  Json.readable_list fun _ _ => rfl

/-- A mutation comes back under its tag if the times of its calls can be read. -/
theorem Mutation.readsBack_toJson {m : Mutation} (h : ∀ c ∈ m.calls, c.Fits) :
    ReadsBack Mutation.ofJson m.toJson m (∀ t ∈ Call.allTimes m.calls, t.Readable) := by
  cases m with
  | cancel trip =>
    refine (readsBack_tagged Mutation.variants "cancel" rfl ?_
      (.map Mutation.cancel (.required trip.readsBack_toJson ?_))).congr ?_
    · simp [trip.readable_toJson]
    all_goals simp [calls, Call.allTimes]
  | delete trip =>
    refine (readsBack_tagged Mutation.variants "delete" rfl ?_
      (.map Mutation.delete (.required trip.readsBack_toJson ?_))).congr ?_
    · simp [trip.readable_toJson]
    all_goals simp [calls, Call.allTimes]
  | reroute trip calls =>
    refine (readsBack_tagged Mutation.variants "reroute" rfl ?_
      (.seq (.map Mutation.reroute (.required trip.readsBack_toJson ?_))
        (.required (Call.readsBack_list h) ?_))).congr ?_
    · simp [trip.readable_toJson, Call.readable_list]
    all_goals simp [Mutation.calls]
  | addTrip trip calls =>
    refine (readsBack_tagged Mutation.variants "add_trip" rfl ?_
      (.seq (.map Mutation.addTrip (.required trip.readsBack_toJson ?_))
        (.required (Call.readsBack_list h) ?_))).congr ?_
    · simp [trip.readable_toJson, Call.readable_list]
    all_goals simp [Mutation.calls]

/-! ### Connections -/

theorem Priority.readsBack_toJson (p : Priority) : ReadsBack Priority.ofJson p.toJson p True :=
  readsBack_of_eq_ok (by cases p <;> rfl)

/-- The times of the rule have their width. -/
structure ConnectionRule.Fits (r : ConnectionRule) : Prop where
  minTransferTime : ∀ n ∈ r.minTransferTime, minShort ≤ n ∧ n ≤ maxShort
  maxWaitTime : ∀ n ∈ r.maxWaitTime, minShort ≤ n ∧ n ≤ maxShort

/-- Rules come back that are within their widths. -/
theorem ConnectionRule.readsBack_toJson {r : ConnectionRule} (h : r.Fits) :
    ReadsBack ConnectionRule.ofJson r.toJson r True := by
  have hnullable : ∀ o : Option Int, (∀ n ∈ o, minShort ≤ n ∧ n ≤ maxShort) →
      ReadsBack (decodeNullable decodeShortInteger) (.nullable .integer o) o True :=
    fun o ho => readsBack_nullable_true (fun n hn => readsBack_shortInteger (ho n hn)) (by simp)
  refine (Fields.ReadsBack.seq (.seq (.seq (.seq (.map ConnectionRule.mk
    (.optional r.priority.readsBack_toJson ?_))
    (.optional (readsBack_bool r.staySeated) ?_))
    (.optional (readsBack_bool r.guaranteed) ?_))
    (.optional (hnullable r.minTransferTime h.minTransferTime) ?_))
    (.optional (hnullable r.maxWaitTime h.maxWaitTime) ?_)).decode.congr (by simp)
  all_goals simp

theorem TripPosition.readsBack_toJson {p : TripPosition} (h : p.position < countLimit) :
    ReadsBack TripPosition.ofJson p.toJson p True := by
  refine (Fields.ReadsBack.seq (.map TripPosition.mk (.required p.trip.readsBack_toJson ?_))
    (.required (readsBack_count h) ?_)).decode.congr (by simp)
  all_goals simp

namespace Connection

/-- The numbers of the connection and of its rule have their widths. -/
structure Fits (c : Connection) : Prop where
  source : c.source.position < countLimit
  target : c.target.position < countLimit
  targetTripIndex : c.targetTripIndex < countLimit
  rule : c.rule.Fits

/-- A connection comes back if the time of its target can be read. -/
theorem readsBack_toJson {c : Connection} (h : c.Fits) :
    ReadsBack ofJson c.toJson c c.targetTime.Readable := by
  refine (Fields.ReadsBack.seq (.seq (.seq (.seq (.map Connection.mk
    (.required (TripPosition.readsBack_toJson h.source) ?_))
    (.required (TripPosition.readsBack_toJson h.target) ?_))
    (.required (readsBack_count h.targetTripIndex) ?_))
    (.required c.targetTime.readsBack_toJson ?_))
    (.required (ConnectionRule.readsBack_toJson h.rule) ?_)).decode.congr (by simp)
  all_goals simp

private theorem inWidth_toJson {c : Connection} (h : c.Fits) : c.toJson.InWidth := by
  have hrule : c.rule.toJson.InWidth :=
    ⟨trivial, trivial, trivial,
      inWidth_nullable fun n hn => inWidth_shortInteger (h.rule.minTransferTime n hn),
      inWidth_nullable fun n hn => inWidth_shortInteger (h.rule.maxWaitTime n hn), trivial⟩
  have hposition : ∀ p : TripPosition, p.position < countLimit → p.toJson.InWidth :=
    fun p hp => ⟨trivial, inWidth_count hp, trivial⟩
  exact ⟨hposition c.source h.source, hposition c.target h.target,
    inWidth_count h.targetTripIndex, trivial, hrule, trivial⟩

end Connection

/-! ### Texts -/

private theorem Trip.inWidth_toJson (t : Trip) : t.toJson.InWidth :=
  ⟨trivial, trivial, inWidth_nullable fun _ _ => trivial, inWidth_nullable fun _ _ => trivial,
    trivial⟩

private theorem Call.inWidth_list {cs : List Call} (h : ∀ c ∈ cs, c.Fits) :
    (Value.list toJson cs).InWidth :=
  Json.inWidth_list fun c hc =>
    ⟨inWidth_count (h c hc).stop, inWidth_shortCount (h c hc).sequence, trivial, trivial, trivial⟩

private theorem Mutation.inWidth_toJson {m : Mutation} (h : ∀ c ∈ m.calls, c.Fits) :
    m.toJson.InWidth := by
  cases m with
  | cancel trip => exact ⟨trivial, trivial, trivial⟩
  | delete trip => exact ⟨trivial, trivial, trivial⟩
  | reroute trip calls => exact ⟨trivial, trivial, Call.inWidth_list h, trivial⟩
  | addTrip trip calls => exact ⟨trivial, trip.inWidth_toJson, Call.inWidth_list h, trivial⟩

/-- Values whose numbers fit are read back from their texts if all their times can be read, and
their texts are refused if not. -/
structure RoundTrips {α : Type} (write : α → Value) (read : Decoder α) (Fits : α → Prop)
    (times : α → List ServiceTime) : Prop where
  readBack : ∀ a, Fits a → (∀ t ∈ times a, t.Readable) →
    decodeWholeText read (write a).text = .ok a
  refused : ∀ a, Fits a → (∃ t ∈ times a, ¬ t.Readable) →
    ∃ e, decodeWholeText read (write a).text = .error e

/-- What comes back as a document comes back as a text. -/
private theorem RoundTrips.of_readsBack {α : Type} {write : α → Value} {read : Decoder α}
    {Fits : α → Prop} {times : α → List ServiceTime} (hwidth : ∀ a, Fits a → (write a).InWidth)
    (h : ∀ a, Fits a → ReadsBack read (write a) a (∀ t ∈ times a, t.Readable)) :
    RoundTrips write read Fits times where
  readBack a ha htimes := by
    rw [decodeWholeText_text read (hwidth a ha)]
    exact (h a ha).eq_ok htimes
  refused a ha := by
    rintro ⟨t, ht, hlate⟩
    rw [decodeWholeText_text read (hwidth a ha)]
    exact (h a ha).exists_error fun htimes => hlate (htimes t ht)

/-- **Round trips.** Batches of mutations, scheduled trips and connections are read back from
their texts if all their times can be read, and their texts are refused if not. -/
theorem roundTrips :
    RoundTrips (Value.list Mutation.toJson) (decodeList Mutation.ofJson)
        (fun batch => ∀ m ∈ batch, ∀ c ∈ m.calls, c.Fits)
        (fun batch => Call.allTimes (batch.flatMap Mutation.calls)) ∧
      RoundTrips ScheduledTrip.toJson ScheduledTrip.ofJson
        (fun s => ∀ c ∈ s.calls, c.Fits) (fun s => Call.allTimes s.calls) ∧
      RoundTrips Connection.toJson Connection.ofJson Connection.Fits fun c => [c.targetTime] := by
  refine ⟨.of_readsBack (fun batch h => ?_) fun batch h => ?_,
    .of_readsBack (fun s h => ?_) fun s h => ?_, .of_readsBack (fun c h => ?_) fun c h => ?_⟩
  -- for each form: the numbers can be read, and the value is read back
  · exact inWidth_list fun m hm => Mutation.inWidth_toJson (h m hm)
  · refine (readsBack_list fun m hm => Mutation.readsBack_toJson (h m hm)).congr ?_
    simp only [Call.allTimes, List.flatMap_assoc, List.forall_mem_flatMap]
  · exact ⟨s.trip.inWidth_toJson, Call.inWidth_list h, trivial⟩
  · exact ScheduledTrip.readsBack_toJson h
  · exact Connection.inWidth_toJson h
  · exact (Connection.readsBack_toJson h).congr List.forall_mem_singleton.symm

/-- A trip with a colon, quotes and control characters in its texts. -/
def nightLine : Trip where
  id := ⟨"N", "1:2", by decide⟩
  routeId := ⟨"N", "\x01", by decide⟩
  realtimeTripId := some "\"\\\n"
  longName := some "Tåget №1\x7f"

/-- A call at the given hour. -/
def callAt (hour : Int) : Call := ⟨0, 1, .hms hour 0 0, .hms hour 0 0⟩

/-- A batch for the trip that ends in the last hour that can be read. -/
def nightBatch : List Mutation :=
  [.addTrip nightLine [callAt 46, callAt 47], .reroute nightLine.id [callAt 0],
    .cancel nightLine.id, .delete nightLine.id]

/-- A connection that leaves before the service day. -/
def earlyConnection : Connection where
  source := ⟨nightLine.id, 0⟩
  target := ⟨nightLine.id, 1⟩
  targetTripIndex := 0
  targetTime := .hms (-1) 0 0
  rule := { maxWaitTime := some (-1) }

/-- The batch is read back; calls at 48 o'clock and times before midnight are refused. -/
theorem roundTrips_nightLine :
    decodeWholeText (decodeList Mutation.ofJson) (Value.list Mutation.toJson nightBatch).text =
        .ok nightBatch ∧
      (∃ e, decodeWholeText ScheduledTrip.ofJson
        (ScheduledTrip.toJson ⟨nightLine, [callAt 47, callAt 48]⟩).text = .error e) ∧
      ∃ e, decodeWholeText Connection.ofJson earlyConnection.toJson.text = .error e := by
  have hfits : ∀ hour, (callAt hour).Fits := by
    intro hour
    constructor <;> simp [callAt, countLimit, shortCountLimit]
  refine ⟨roundTrips.1.readBack nightBatch ?_ ?_,
    roundTrips.2.1.refused ⟨nightLine, [callAt 47, callAt 48]⟩ ?_ ?_,
    roundTrips.2.2.refused earlyConnection ?_ ?_⟩
  · simp [nightBatch, Mutation.calls, hfits]
  · decide
  · simp [hfits]
  · exact ⟨.hms 48 0 0, by decide, by decide⟩
  · exact ⟨by decide, by decide, by decide, ⟨by decide, by decide⟩⟩
  · exact ⟨.hms (-1) 0 0, by decide, by decide⟩

end Interchange
