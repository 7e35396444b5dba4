import Interchange.Proofs.Json.Makes
import Interchange.Proofs.Text.Clock
import Interchange.Wire.Network

/-!
# Times in documents

Times are written with two digits for each part, and hours go up to 47. A time that was read is
therefore from the two days that a service day may touch (`ServiceTime.readable_of_parse`), far
away from the ends of the range in which times are kept, and so are the times of all connections
in a description that comes from a document (`Description.makes_ofJson`).
-/

namespace Interchange

open Json

/-! ### Reading times -/

namespace ServiceTime

/-- The time is one from `00:00:00` to `47:59:59`. -/
def Readable (t : ServiceTime) : Prop := 0 ≤ t.seconds ∧ t.seconds ≤ 172799

instance (t : ServiceTime) : Decidable t.Readable :=
  inferInstanceAs (Decidable (0 ≤ t.seconds ∧ t.seconds ≤ 172799))

/-- **Reading.** Whatever text is read, the time is within two days. -/
theorem readable_of_parse {s : String} {t : ServiceTime} (h : parse s = .ok t) : t.Readable := by
  obtain ⟨hour, minute, second, htext, rfl⟩ := parse_eq_ok_iff.mp h
  have hhour := htext.hour_le
  have hminute := htext.minute_le
  have hsecond := htext.second_le
  rw [Readable, htext.seconds_hms]
  omega

/-- A time is decoded within the clock. -/
theorem makes_ofJson : Makes ofJson Readable :=
  .text fun _ _ h => readable_of_parse (mapError_eq_ok_iff.mp h)

end ServiceTime

/-! ### Connections in descriptions -/

theorem Connection.makes_ofJson : Makes ofJson fun c : Connection => c.targetTime.Readable := by
  have htime := Fields.Makes.required "target_time" ServiceTime.makes_ofJson
  refine (Fields.Makes.seq (.seq (.seq (.seq (.map (.any _) ?_) (.any _)) (.any _)) htime)
    (.any _)).decode
  exact fun source _ target _ targetTripIndex _ targetTime htime rule _ => htime

/-- All connections of a description that has been decoded leave at times on the clock. -/
theorem Description.makes_ofJson :
    Makes ofJson fun d : Description => ∀ c ∈ d.connections, c.targetTime.Readable := by
  have hconnections := Fields.Makes.optional "constrained_transfers"
    Connection.makes_ofJson.list (List.forall_mem_nil _)
  refine (Fields.Makes.seq (.seq (.seq (.seq (.map (.any _) ?_) (.any _)) (.any _)) hconnections)
    (.any _)).decode
  exact fun stops _ footpaths _ maxWalk _ connections htimes trips _ => htimes

end Interchange
