/-!
# Public enumerations

The error codes, transfer states and transfer types of `libusby.h`. Functions
that return either a count or an error code return an `Int`, as in C, so every
enumeration comes with its code.
-/

namespace Libusby

/-- `libusby_error`. -/
inductive Error where
  | success | io | invalidParam | access | noDevice | notFound | busy | timeout
  | overflow | pipe | interrupted | noMem | notSupported | other
  deriving DecidableEq, Repr

def Error.code : Error → Int
  | .success => 0
  | .io => -1
  | .invalidParam => -2
  | .access => -3
  | .noDevice => -4
  | .notFound => -5
  | .busy => -6
  | .timeout => -7
  | .overflow => -8
  | .pipe => -9
  | .interrupted => -10
  | .noMem => -11
  | .notSupported => -12
  | .other => -99

/-- `libusby_transfer_status`. -/
inductive TransferStatus where
  | completed | error | timedOut | cancelled | stall | noDevice | overflow
  deriving DecidableEq, Repr

def TransferStatus.code : TransferStatus → Int
  | .completed => 0
  | .error => 1
  | .timedOut => 2
  | .cancelled => 3
  | .stall => 4
  | .noDevice => 5
  | .overflow => 6

theorem TransferStatus.code_nonneg (v : TransferStatus) : 0 ≤ v.code := by cases v <;> decide

/-- `libusby_transfer_type`. -/
inductive TransferType where
  | control | isochronous | bulk | interrupt
  deriving DecidableEq, Repr

end Libusby
