import Telemetry.Files.Fault

/-!
# Broadcast errors

Why a broadcast channel could not be set up, written or read.
-/

namespace Telemetry

inductive BroadcastError where
  | semaphore (call name : String)
  | region (fault : SystemFault)
  | invalidName (name : String)
  | zeroCapacity
  | contentTooLarge (length capacity : Nat)
  /-- a new cycle was opened before the reader finished the last one -/
  | tornRead (sequence : UInt64) (epoch : UInt32) (sequenceNow : UInt64) (epochNow : UInt32)
  /-- an admitted reader woke one or more whole cycles late -/
  | lagged (lastEpoch epoch : UInt32)
  | notReading
  deriving DecidableEq, Repr

namespace BroadcastError

def message : BroadcastError → String
  | semaphore call name => s!"Semaphore {call} failed on {name}"
  | region fault => s!"Shared region setup failed: {fault.message}"
  | invalidName name => s!"Invalid broadcast name: {name}"
  | zeroCapacity => "Region capacity must be positive"
  | contentTooLarge length capacity =>
      s!"Content of {length} bytes exceeds region capacity {capacity}"
  | tornRead sequence epoch sequenceNow epochNow =>
      s!"Torn read: cycle {sequence} (epoch {epoch}) overwritten, region now at {sequenceNow} (epoch {epochNow})"
  | lagged lastEpoch epoch => s!"Reader lagged: last read epoch {lastEpoch}, woke at epoch {epoch}"
  | notReading => "done_read called without a preceding wait_read"

def isTornRead : BroadcastError → Bool
  | tornRead .. => true
  | _ => false

/-- The reader fell behind and has to leave. -/
def isLagging : BroadcastError → Bool
  | tornRead .. | lagged .. => true
  | _ => false

end BroadcastError
end Telemetry
