import Telemetry.Agent.Probe

/-!
# Probe sets

At most one probe for each stream kind.  A round of samples refreshes every probe and then samples
each key; a key whose probe fails is left out.  A probe that fails to refresh is sampled all the same.
-/

namespace Telemetry

structure ProbeSet where
  probes : List Probe
  calls : List ProbeCall
  deriving DecidableEq

namespace ProbeSet

def empty : ProbeSet :=
  ⟨[], []⟩

/-- Add a probe in place of any other for its kind. -/
def register (s : ProbeSet) (p : Probe) : ProbeSet :=
  { s with probes := s.probes.filter (fun q => q.kind ≠ p.kind) ++ [p] }

def bundled : ProbeSet :=
  empty.register (.counting [])

def find? (s : ProbeSet) (kind : StreamKind) : Option Probe :=
  s.probes.find? fun p => p.kind = kind

def supports (s : ProbeSet) (kind : StreamKind) : Bool :=
  (s.find? kind).isSome

def called (s : ProbeSet) (p : Probe) (calls : List ProbeCall) : ProbeSet :=
  { s.register p with calls := s.calls ++ calls }

/-! ## Preparing -/

def prepareOne (s : ProbeSet) (key : StreamKey) : Bool × ProbeSet :=
  match s.find? key.kind with
  | none => (false, s)
  | some p =>
      let (result, p') := p.prepare key
      (result.toBool, s.called p' (p.calls .prepare key.argument))

/-- Prepare keys in order; those that have a probe and do not fail are active. -/
def prepare (s : ProbeSet) (keys : List StreamKey) : List StreamKey × ProbeSet :=
  keys.foldl
    (fun (active, s) key =>
      let (ok, s) := s.prepareOne key
      (if ok then active ++ [key] else active, s))
    ([], s)

/-! ## Sampling -/

def sample (s : ProbeSet) (key : StreamKey) : Except ProbeError Record × ProbeSet :=
  match s.find? key.kind with
  | none => (.error (.unsupported key.kind), s)
  | some p =>
      let (result, p') := p.sample key
      (result, s.called p' (p.calls .sample key.argument))

/-- Take one sample of a key after a number of earlier ones. -/
def sampleAfter (s : ProbeSet) (key : StreamKey) :
    (earlier : Nat) → Except ProbeError Record × ProbeSet
  | 0 => s.sample key
  | n + 1 => (s.sample key).2.sampleAfter key n

def refresh (s : ProbeSet) : ProbeSet :=
  { s with calls := s.calls ++ s.probes.flatMap fun p => p.calls .refresh "" }

/-- Records in the order of keys, one for a key. -/
abbrev Samples := List (StreamKey × Record)

def Samples.get? (samples : Samples) (key : StreamKey) : Option Record :=
  (List.find? (fun e => e.1 = key) samples).map (·.2)

/-- Put a record under its key, in place of another. -/
def Samples.put (key : StreamKey) (record : Record) : Samples → Samples
  | [] => [(key, record)]
  | e :: rest =>
      if e.1 = key then (key, record) :: rest
      else if key.before e.1 then (key, record) :: e :: rest
      else e :: Samples.put key record rest

def sampleAll (s : ProbeSet) (keys : List StreamKey) : Samples × ProbeSet :=
  keys.foldl
    (fun (samples, s) key =>
      match s.sample key with
      | (.ok record, s) => (Samples.put key record samples, s)
      | (.error _, s) => (samples, s))
    ([], s.refresh)

end ProbeSet
end Telemetry
