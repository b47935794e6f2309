import Telemetry.Stream.Key
import Telemetry.Stream.Record

/-!
# Probes — where records come from

A probe serves one stream kind and gives a record for an argument.  The counting probe serves the
synthetic kind: it counts the samples of each argument, and every field follows from the count.  A
scripted probe gives zeros and fails for the arguments it is told to fail for.
-/

namespace Telemetry

/-! ## Errors and calls -/

inductive ProbeError where
  | unsupported (kind : StreamKind)
  | failed (key : StreamKey) (reason : String)
  deriving DecidableEq

def ProbeError.message : ProbeError → String
  | unsupported kind => s!"No probe for stream type {kind.name}"
  | failed key reason => s!"Probe {key.text} failed: {reason}"

inductive ProbeAction where
  | prepare
  | refresh
  | sample
  deriving DecidableEq, Repr

/-- A call of a scripted probe; a refresh has no argument. -/
structure ProbeCall where
  kind : StreamKind
  action : ProbeAction
  argument : String
  deriving DecidableEq, Repr

def ProbeCall.text (c : ProbeCall) : String :=
  let action := match c.action with
    | .prepare => "prepare"
    | .refresh => "refresh"
    | .sample => "sample"
  s!"{c.kind.name} {action} {c.argument}"

/-! ## The counting probe -/

def syntheticRecord (tick : UInt64) : Record where
  kind := .synthetic
  values :=
    let small : UInt16 := (tick % 1000).toUInt16
    let word : UInt32 := tick.toUInt32
    let low : UInt8 := tick.toUInt8
    let signed : Int64 := tick.toInt64
    [.counter64 tick, .counter64 (tick * 2), .counter64 (tick * 3), .counter64 (tick * 4),
      .fixed ⟨signed⟩, .fixed ⟨-signed⟩, .fixed ⟨signed * 1000000⟩, .fixed ⟨-signed * 1000000⟩,
      .counter32 word, .counter32 (word * 2), .counter32 (word * 3), .counter32 (word * 4),
      .scaled ⟨small⟩, .scaled ⟨small * 2⟩, .scaled ⟨small * 3⟩, .scaled ⟨small * 4⟩,
      .percent ⟨small⟩, .percent ⟨1000 - small⟩, .percent ⟨small / 2⟩, .percent ⟨500⟩,
      .byte low, .byte (low * 2), .byte (low * 3), .byte (low * 4)]
  shaped := rfl

abbrev Ticks := List (String × UInt64)

namespace Ticks

def of (t : Ticks) (argument : String) : UInt64 :=
  ((List.find? (fun e => e.1 == argument) t).map (·.2)).getD 0

def put (t : Ticks) (argument : String) (n : UInt64) : Ticks :=
  (argument, n) :: List.filter (fun e => e.1 != argument) t

end Ticks

/-! ## Probes -/

inductive Probe where
  | counting (ticks : Ticks)
  | scripted (kind : StreamKind) (badPrepare badSample : List String)
  deriving DecidableEq

namespace Probe

def kind : Probe → StreamKind
  | counting _ => .synthetic
  | scripted kind _ _ => kind

def scriptedReason : String := "scripted"

/-- Get ready for an argument; a count that has begun goes on. -/
def prepare (p : Probe) (key : StreamKey) : Except ProbeError Unit × Probe :=
  match p with
  | counting ticks => (.ok (), counting (ticks.put key.argument (ticks.of key.argument)))
  | scripted _ bad _ =>
      (if bad.contains key.argument then .error (.failed key scriptedReason) else .ok (), p)

def sample (p : Probe) (key : StreamKey) : Except ProbeError Record × Probe :=
  match p with
  | counting ticks =>
      let tick := ticks.of key.argument + 1
      (.ok (syntheticRecord tick), counting (ticks.put key.argument tick))
  | scripted kind _ bad =>
      (if bad.contains key.argument then .error (.failed key scriptedReason)
        else .ok (Record.zeroed kind), p)

/-- The calls that a probe reports: none if it is not scripted. -/
def calls (p : Probe) (action : ProbeAction) (argument : String) : List ProbeCall :=
  match p with
  | counting _ => []
  | scripted kind _ _ => [⟨kind, action, argument⟩]

end Probe
end Telemetry
