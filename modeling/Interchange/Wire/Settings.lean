import Interchange.Settings
import Interchange.Wire.Schedule

/-!
# JSON forms of settings

Settings come in sections, and sections as well as the values in them may be left out.
`Settings.fields` takes the number of cores, which is the default number of workers.
-/

namespace Interchange

open Json

def SocketAddress.toJson (a : SocketAddress) : Value := .string a.text

def SocketAddress.ofJson : Decoder SocketAddress :=
  decodeText fun s => match SocketAddress.read? s with
    | some a => .ok a
    | none => .error .wrongShape

def BuildSettings.toJson (s : BuildSettings) : Value :=
  .object [("parallel", .bool s.parallel), ("worker_threads", .count s.workers)]

def BuildSettings.fields (default : BuildSettings) : Fields BuildSettings :=
  BuildSettings.mk <$> optional "parallel" decodeBool default.parallel
    <*> optional "worker_threads" decodeCount default.workers

def WalkModel.toJson (m : WalkModel) : Value :=
  .object [("speed_mps", measureToJson m.speed), ("reluctance", measureToJson m.reluctance),
    ("wheelchair", .bool m.wheelchair)]

def WalkModel.fields (default : WalkModel) : Fields WalkModel :=
  WalkModel.mk <$> optional "speed_mps" decodeDouble default.speed
    <*> optional "reluctance" decodeDouble default.reluctance
    <*> optional "wheelchair" decodeBool default.wheelchair

/-- A section that has a single value. -/
def sectionOf (name : String) (f : Decoder α) (default : α) : Decoder α :=
  (optional name f default).decode

def Settings.toJson (s : Settings) : Value :=
  .object [("feed_id", .string s.feedId), ("transfers", s.transfers.toJson),
    ("walk", s.walk.toJson),
    ("boarding", .object [("default_min_transfer_secs", .integer s.minTransferTime)]),
    ("updates", .object [("queue_size", .count s.queueSize)]),
    ("server", .object [("bind", s.bind.toJson)])]

def Settings.fields (cores : Nat) : Fields Settings :=
  let d := Settings.default cores
  Settings.mk <$> optional "feed_id" decodeString d.feedId
    <*> optional "transfers" (BuildSettings.fields d.transfers).decode d.transfers
    <*> optional "walk" (WalkModel.fields d.walk).decode d.walk
    <*> optional "boarding"
      (sectionOf "default_min_transfer_secs" decodeShortInteger d.minTransferTime)
      d.minTransferTime
    <*> optional "updates" (sectionOf "queue_size" decodeCount d.queueSize) d.queueSize
    <*> optional "server" (sectionOf "bind" SocketAddress.ofJson d.bind) d.bind

/-- The settings of a machine with the given number of cores. -/
def Settings.ofJson (cores : Nat) : Decoder Settings := (Settings.fields cores).decode

end Interchange
