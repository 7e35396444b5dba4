import Interchange.Connection.Rule
import Interchange.ServiceTime
import Interchange.Text.SocketAddress
import Interchange.Transfer.Graph

/-!
# Settings

The settings of a server. Each has a default but for the number of workers, whose default is
the number of cores of the machine and so a parameter here. `Settings.validate` refuses
values with which the server would not work.
-/

namespace Interchange

/-- The settings of a server. -/
structure Settings where
  /-- The feed whose realtime updates are applied -/
  feedId : String
  transfers : BuildSettings
  walk : WalkModel
  /-- The seconds that riders need to change where no rule says otherwise -/
  minTransferTime : Int
  /-- How many batches of updates may wait -/
  queueSize : Nat
  bind : SocketAddress

/-- A value out of range. -/
inductive SettingsError where
  | feedId
  | workers
  | speed
  | reluctance
  | minTransferTime
  | queueSize
deriving DecidableEq, Repr

/-- The wording of a refusal. -/
def SettingsError.message (e : SettingsError) : String :=
  "invalid config value: " ++ match e with
    | .feedId => "feed_id must be non-empty without ':'"
    | .workers => "transfers.worker_threads must be at least 1"
    | .speed => "walk.speed_mps must be positive"
    | .reluctance => "walk.reluctance must be positive"
    | .minTransferTime => "boarding.default_min_transfer_secs must be between 0 and one day"
    | .queueSize => "updates.queue_size must be at least 1"

namespace Settings

/-- The settings of a machine with the given number of cores where nothing is set. -/
def default (cores : Nat) : Settings where
  feedId := "default"
  transfers := { parallel := true, workers := cores }
  walk := {}
  minTransferTime := 120
  queueSize := 16
  bind := .v4 #v[127, 0, 0, 1] 3000

/-- Checks that all values are in range; the first that is not is reported. -/
def validate (s : Settings) : Except SettingsError Unit :=
  if s.feedId = "" ∨ ':' ∈ s.feedId.toList then .error .feedId
  else if s.transfers.workers = 0 then .error .workers
  else if !(0 < s.walk.speed) then .error .speed
  else if !(0 < s.walk.reluctance) then .error .reluctance
  else if s.minTransferTime < 0 ∨ longestRuleTime < s.minTransferTime then .error .minTransferTime
  else if s.queueSize = 0 then .error .queueSize
  else .ok ()

/-- When a rider who alights at `alight` may board another trip if no rule says otherwise. -/
def earliestBoarding (s : Settings) (alight : ServiceTime) : ServiceTime :=
  alight.add s.minTransferTime

end Settings

end Interchange
