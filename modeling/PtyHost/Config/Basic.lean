import PtyHost.Home
import PtyHost.OsError
import PtyHost.Pty.LineSettings
import PtyHost.Signal

/-!
# Configurations

The settings of the program, with the value that each has by default, the environment variables
that override some of them, and the check that they can be used.

Main statement: `validate_eq_none_iff` says which configurations can be used.
-/

namespace PtyHost

/-- Why there is no configuration. -/
inductive ConfigError
  | read (path : Path) (cause : OsError)
  | parse (path : Path)
  | invalid (reason : String)
deriving DecidableEq, Repr

/-- The wording of a failure. -/
def ConfigError.message : ConfigError → String
  | .read path cause => "failed to read config file " ++ path.display ++ ": " ++ cause.message
  | .parse path => "failed to parse config file " ++ path.display
  | .invalid reason => "invalid configuration: " ++ reason

namespace Config

/-! ### Defaults

They are used twice: by a section that is missing, and by one that leaves a setting out. -/

/-- The type of the terminal. -/
def defaultTerm : String := "xterm"

/-- The rows of the window. -/
def defaultRows : UInt16 := 24

/-- The columns of the window. -/
def defaultCols : UInt16 := 80

/-- The milliseconds between the signal that asks a program to end and the one that ends it. -/
def defaultGracePeriodMs : Nat := 3000

/-- The signal that asks a program to end. -/
def defaultTerminateSignal : String := "SIGHUP"

/-- Whether the terminal line is set for UTF-8. -/
def defaultUtf8 : Bool := true

/-- Whether a session that has finished goes away by itself. -/
def defaultAutoClose : Bool := true

/-- The seconds without output that count as silence. -/
def defaultSilenceSeconds : Nat := 10

/-- The most sessions at one time. -/
def defaultMaxSessions : Nat := 20

/-- The least severe events that are logged. -/
def defaultLevel : String := "warn"

/-! ### Sections -/

/-- Settings of every new session. Times are in the units that their names give. -/
structure SessionSection where
  defaultShell : Option String := none
  term : String := defaultTerm
  rows : UInt16 := defaultRows
  cols : UInt16 := defaultCols
  workingDir : Option String := none
  gracePeriodMs : Nat := defaultGracePeriodMs
  terminateSignal : String := defaultTerminateSignal
  xonXoff : Bool := false
  utf8 : Bool := defaultUtf8
  erase : Option UInt8 := none
  autoClose : Bool := defaultAutoClose
  monitorActivity : Bool := false
  monitorSilence : Bool := false
  silenceSeconds : Nat := defaultSilenceSeconds
  env : List (String × String) := []
deriving DecidableEq, Repr

/-- Which permission helper is used, if any. -/
structure BrokerSection where
  program : Option String := none
deriving DecidableEq, Repr

/-- Limits of the registry of sessions. -/
structure RegistrySection where
  maxSessions : Nat := defaultMaxSessions
deriving DecidableEq, Repr

/-- What is logged. -/
structure LoggingSection where
  level : String := defaultLevel
deriving DecidableEq, Repr

/-- The signal that a name stands for. -/
def signal (name : String) : Except ConfigError Signal :=
  match Signal.ofName? name with
  | some s => .ok s
  | none => .error (.invalid ("unknown signal " ++ Signal.fullName name))

namespace SessionSection

/-- The signal that asks a program to end. -/
def signal (s : SessionSection) : Except ConfigError Signal := Config.signal s.terminateSignal

/-- The settings of the terminal line. -/
def line (s : SessionSection) : Pty.LineSettings := ⟨s.xonXoff, s.utf8, s.erase⟩

/-- The directory that programs are started in. -/
def directory (home : Option Path) (s : SessionSection) : Option Path :=
  s.workingDir.map (expandTilde home)

end SessionSection

end Config

/-- A configuration. -/
structure Config where
  session : Config.SessionSection := {}
  broker : Config.BrokerSection := {}
  registry : Config.RegistrySection := {}
  logging : Config.LoggingSection := {}
deriving DecidableEq, Repr

namespace Config

/-- The variable that names the default shell. -/
def shellVariable : String := "TERMHOST_SHELL"

/-- The variable that names the permission helper. -/
def brokerVariable : String := "TERMHOST_BROKER"

/-- The variable that sets what is logged. -/
def logVariable : String := "TERMHOST_LOG"

/-- A text, unless it is empty. -/
def nonempty? (text : String) : Option String := if text = "" then none else some text

/-- The configuration with the overrides of an environment. An empty name of a helper disables
it; the other variables count only if they are not empty. -/
def override (valueOf : String → Option String) (c : Config) : Config where
  session := { c.session with
    defaultShell := ((valueOf shellVariable).bind nonempty?).or c.session.defaultShell }
  broker := ⟨((valueOf brokerVariable).map nonempty?).getD c.broker.program⟩
  registry := c.registry
  logging := ⟨((valueOf logVariable).bind nonempty?).getD c.logging.level⟩

/-- Why a configuration cannot be used, if it cannot. -/
def validate (c : Config) : Option ConfigError :=
  if c.session.rows = 0 ∨ c.session.cols = 0 then
    some (.invalid s!"terminal size {c.session.rows}x{c.session.cols} is empty")
  else if c.session.silenceSeconds = 0 then
    some (.invalid "silence_seconds must be at least 1")
  else if c.registry.maxSessions = 0 then
    some (.invalid "max_sessions must be at least 1")
  else
    match c.session.signal with
    | .ok _ => none
    | .error e => some e

/-- A configuration can be used if its window is not empty, its limits are not zero and its signal
is known. -/
theorem validate_eq_none_iff (c : Config) :
    c.validate = none ↔ c.session.rows ≠ 0 ∧ c.session.cols ≠ 0 ∧ c.session.silenceSeconds ≠ 0 ∧
      c.registry.maxSessions ≠ 0 ∧ ∃ s, c.session.signal = .ok s := by
  unfold validate
  by_cases hsize : c.session.rows = 0 ∨ c.session.cols = 0
  · rw [if_pos hsize]
    simp only [reduceCtorEq, false_iff]
    rintro ⟨hr, hc, _⟩
    exact hsize.elim hr hc
  · rw [if_neg hsize]
    rw [not_or] at hsize
    by_cases hs : c.session.silenceSeconds = 0
    · simp [hs]
    · by_cases hm : c.registry.maxSessions = 0
      · simp [hm, hs]
      · cases hsig : c.session.signal <;> simp [hs, hm, hsize]

end Config

end PtyHost
