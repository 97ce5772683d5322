import PtyHost.Broker.Error
import PtyHost.OsError

/-!
# Failures of a session

What can go wrong while a session is started, driven or stopped.
-/

namespace PtyHost

/-- Why an operation on a session failed. -/
inductive SessionError
  | deviceUnavailable (reason : String)
  | broker (cause : Broker.Error)
  | brokerUnavailable (program : Path) (reason : String)
  | execFailed (program : String) (cause : OsError)
  | alreadyRunning
  | notRunning
  | alreadyTerminated
  | sessionLimit (limit : Nat)
  | invalidSignal (number : Int)
  | device (cause : OsError)
deriving DecidableEq, Repr

namespace SessionError

/-- The wording of a failure. -/
def message : SessionError → String
  | .deviceUnavailable reason => "no pseudo-terminal available: " ++ reason
  | .broker cause => "cannot start session: " ++ cause.message
  | .brokerUnavailable program reason =>
    "cannot start session: permission helper " ++ program.display ++ " could not be run: " ++ reason
  | .execFailed program cause => "cannot execute " ++ program ++ ": " ++ cause.message
  | .alreadyRunning => "session is already running"
  | .notRunning => "session is not running"
  | .alreadyTerminated => "session has already terminated"
  | .sessionLimit limit => s!"session limit reached (max {limit})"
  | .invalidSignal number => s!"invalid signal number {number}"
  | .device cause => "pty I/O error: " ++ cause.message

/-- Whether the failure means that the session never had a program running. -/
def isStartupFailure : SessionError → Bool
  | .deviceUnavailable _ | .broker _ | .brokerUnavailable .. | .execFailed .. => true
  | _ => false

end SessionError

end PtyHost
