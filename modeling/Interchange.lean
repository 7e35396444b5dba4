import Interchange.Width
import Interchange.Text.Decimal
import Interchange.Text.FixedPoint
import Interchange.Json.Number
import Interchange.Json.Document
import Interchange.Json.Text
import Interchange.Json.Decoder
import Interchange.Calendar.DateTime
import Interchange.SortedMap
import Interchange.ScopedId
import Interchange.ServiceTime
import Interchange.Stop
import Interchange.Trip
import Interchange.Version.Active
import Interchange.Transfer.Graph
import Interchange.Connection.Index
import Interchange.Update.Service
import Interchange.Network.Build
import Interchange.Network.Published
import Interchange.Wire.Network
import Interchange.Wire.Settings
import Interchange.Wire.Update
import Interchange.Server.State
import Interchange.Proofs.Update.Refinement
import Interchange.Proofs.Timetable.Rerouting
import Interchange.Proofs.Network.LiveTimetable
import Interchange.Proofs.Server.Alone
import Interchange.Proofs.Server.Reload
import Interchange.Proofs.Timetable.Reordering
import Interchange.Proofs.Network.Boarding
import Interchange.Proofs.Network.Consistency
import Interchange.Proofs.Version.FirstMoment
import Interchange.Proofs.Wire.RoundTrip
import Interchange.Proofs.Server.Failures
import Interchange.Proofs.Tally
import Interchange.Proofs.Timetable.Conservation
import Interchange.Proofs.Timetable.Meaning
import Interchange.Proofs.Timetable.Withdrawal
import Interchange.Proofs.Timetable.Batches
import Interchange.Proofs.Connection.Comparison
import Interchange.Proofs.Version.Resolving
import Interchange.Proofs.Network.Neighbors
import Interchange.Proofs.Timetable.Changes
import Interchange.Proofs.Timetable.Precedence
import Interchange.Proofs.Timetable.KnownStops
import Interchange.Proofs.Network.MoreFootpaths
import Interchange.Proofs.Text.ClockBytes
import Interchange.Proofs.Version.Sorting
import Interchange.Proofs.Connection.Forbidden
import Interchange.Proofs.Text.CallKey
import Interchange.Proofs.Server.Naming
