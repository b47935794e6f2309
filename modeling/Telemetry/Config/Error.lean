import Telemetry.Config.Registry
import Telemetry.Toml.Shape
import Telemetry.Wire.Error

/-!
# Configuration errors

Why a configuration is refused.
-/

namespace Telemetry

/-- Why a configuration of the right shape is not valid. -/
inductive Invalidity where
  | zeroInterval
  | packetSize (e : WireError)
  | zeroCapacity
  deriving DecidableEq, Repr

def Invalidity.message : Invalidity → String
  | zeroInterval => "interval_secs must be at least 1"
  | packetSize e => s!"max_packet_size: {e.message}"
  | zeroCapacity => "broadcast_capacity must be positive"

inductive ConfigError where
  /-- the file cannot be read, for the reason given -/
  | unreadable (path reason : String)
  | notToml
  | shape (e : Toml.ShapeError)
  | unresolved (host reason : String)
  | duplicate (d : Duplicate)
  /-- a series file for a stream that the source does not accept -/
  | unacceptedSink (host : String) (stream : String)
  | invalid (i : Invalidity)

namespace ConfigError

def message : ConfigError → String
  | unreadable path reason => s!"Failed to read config file {path}: {reason}"
  | notToml => "Failed to parse config"
  | shape e => e.message
  | unresolved host reason => s!"Cannot resolve {host}: {reason}"
  | duplicate d => d.message
  | unacceptedSink host stream => s!"Source {host} writes {stream} but does not accept it"
  | invalid i => s!"Invalid configuration: {i.message}"

end ConfigError
end Telemetry
