import PtyHost.Config.Basic
import PtyHost.WindowSize

/-!
# Options of a session

The settings that a session is made with, usually those of a configuration. Spans of time are in
milliseconds.
-/

namespace PtyHost

/-- The settings of one session. -/
structure SessionOptions where
  size : WindowSize := ⟨24, 80⟩
  line : Pty.LineSettings := {}
  env : List (String × String) := []
  workingDir : Option Path := none
  gracePeriod : Nat := 3000
  terminateSignal : Signal := .hup
  autoClose : Bool := true
  monitorActivity : Bool := false
  monitorSilence : Bool := false
  silenceTimeout : Nat := 10000
deriving DecidableEq, Repr

/-- The settings of the sessions of a configuration. -/
def SessionOptions.ofConfig (home : Option Path) (c : Config.SessionSection) :
    Except ConfigError SessionOptions := do
  return {
    size := ⟨c.rows, c.cols⟩
    line := c.line
    env := c.env
    workingDir := c.directory home
    gracePeriod := c.gracePeriodMs
    terminateSignal := ← c.signal
    autoClose := c.autoClose
    monitorActivity := c.monitorActivity
    monitorSilence := c.monitorSilence
    silenceTimeout := c.silenceSeconds * 1000 }

end PtyHost
