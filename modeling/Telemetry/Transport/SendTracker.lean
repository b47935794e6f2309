/-!
# Send tracker — which send failures are worth a report

A failure is reported if it is the first of all, or its number among all failures is a multiple of
fifty.  A success is reported if it ends a run of failures of which one was reported.
-/

namespace Telemetry

/-- Failures from one report to the next. -/
def reportInterval : Nat := 50

structure SendTracker where
  total : Nat
  consecutive : Nat
  /-- whether a failure of the current run was reported -/
  reported : Bool
  deriving DecidableEq, Repr

namespace SendTracker

def fresh : SendTracker :=
  ⟨0, 0, false⟩

/-- Count a failure and tell whether to report it. -/
def fail (t : SendTracker) : Bool × SendTracker :=
  let total := t.total + 1
  let report := total == 1 || total % reportInterval == 0
  (report, ⟨total, t.consecutive + 1, t.reported || report⟩)

/-- End the run of failures; its length is answered if it is to be reported. -/
def succeed (t : SendTracker) : Option Nat × SendTracker :=
  (if t.reported && decide (0 < t.consecutive) then some t.consecutive else none,
    ⟨t.total, 0, false⟩)

/-- Count failures; the numbers of those to report, from 1 on, are answered. -/
def failMany (t : SendTracker) (n : Nat) : List Nat × SendTracker :=
  (List.range n).foldl
    (fun (reports, t) i =>
      let (report, t) := t.fail
      (if report then reports ++ [i + 1] else reports, t))
    ([], t)

/-- Count successes, with what each of them reports. -/
def succeedMany (t : SendTracker) (n : Nat) : List (Option Nat) × SendTracker :=
  (List.range n).foldl
    (fun (reports, t) _ =>
      let (report, t) := t.succeed
      (reports ++ [report], t))
    ([], t)

end SendTracker
end Telemetry
