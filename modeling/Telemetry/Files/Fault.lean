/-!
# Faults of the operating system

Why a system call failed, with the text the system gives for it.
-/

namespace Telemetry

inductive SystemFault where
  | notFound
  | interrupted
  | tryAgain
  | outOfMemory
  | accessDenied
  | alreadyThere
  | notFolder
  | isFolder
  | fileTooLarge
  | noSpace
  | nameTooLong
  | addressNotAvailable
  | networkUnreachable
  | connectionRefused
  | timedOut
  /-- a path with a NUL never reaches the system -/
  | nulInPath
  /-- a number that the system's own type does not hold -/
  | numberTooLarge
  /-- a text file whose bytes are no text -/
  | notText
  deriving DecidableEq, Repr

namespace SystemFault

/-- The number of a fault, for those that the system itself reports. -/
def code? : SystemFault → Option Nat
  | notFound => some 2
  | interrupted => some 4
  | tryAgain => some 11
  | outOfMemory => some 12
  | accessDenied => some 13
  | alreadyThere => some 17
  | notFolder => some 20
  | isFolder => some 21
  | fileTooLarge => some 27
  | noSpace => some 28
  | nameTooLong => some 36
  | addressNotAvailable => some 99
  | networkUnreachable => some 101
  | timedOut => some 110
  | connectionRefused => some 111
  | nulInPath | numberTooLarge | notText => none

def wording : SystemFault → String
  | notFound => "No such file or directory"
  | interrupted => "Interrupted system call"
  | tryAgain => "Resource temporarily unavailable"
  | outOfMemory => "Cannot allocate memory"
  | accessDenied => "Permission denied"
  | alreadyThere => "File exists"
  | notFolder => "Not a directory"
  | isFolder => "Is a directory"
  | fileTooLarge => "File too large"
  | noSpace => "No space left on device"
  | nameTooLong => "File name too long"
  | addressNotAvailable => "Cannot assign requested address"
  | networkUnreachable => "Network is unreachable"
  | timedOut => "Connection timed out"
  | connectionRefused => "Connection refused"
  | nulInPath => "file name contained an unexpected NUL byte"
  | numberTooLarge => "number too large to fit in target type"
  | notText => "stream did not contain valid UTF-8"

/-- The wording, with the number of the fault behind it. -/
def message (f : SystemFault) : String :=
  match f.code? with
  | some n => s!"{f.wording} (os error {n})"
  | none => f.wording

end SystemFault
end Telemetry
