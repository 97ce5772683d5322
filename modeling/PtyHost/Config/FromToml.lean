import PtyHost.Config.Basic
import PtyHost.Toml.Value

/-!
# Configurations from TOML

Reads a configuration from the table of a document. Keys that mean nothing are ignored, and keys
that are missing leave the default. A section may also be an array, whose items are its settings
in order; then those settings that have no default have to be there.
-/

namespace PtyHost.Config

open Toml (Value Entries)

/-- Where the settings of a section are: under their keys, or at their places in a list. -/
inductive Source
  | keyed (entries : Entries)
  | listed (items : List Value)

namespace Source

/-- The source that a value is. A date has no settings. -/
def ofValue? : Value → Option Source
  | .table _ entries => some (.keyed entries)
  | .array _ items => some (.listed items)
  | .datetime _ => some (.keyed [])
  | _ => none

/-- The value of the setting with a place and a key. -/
def value? (s : Source) (place : Nat) (key : String) : Option Value :=
  match s with
  | .keyed entries => entries.lookup key
  | .listed items => items[place]?

/-- Whether a list goes as far as the first `n` settings. -/
def reaches (s : Source) (n : Nat) : Bool :=
  match s with
  | .keyed _ => true
  | .listed items => n ≤ items.length

/-- The setting with a place and a key, or its default. -/
def setting {α : Type} (s : Source) (place : Nat) (key : String) (decode? : Value → Option α)
    (default : α) : Option α :=
  match s.value? place key with
  | none => some default
  | some v => decode? v

end Source

/-- A text. -/
def text? : Value → Option String
  | .string s => some s
  | _ => none

/-- A truth value. -/
def flag? : Value → Option Bool
  | .boolean b => some b
  | _ => none

/-- A number from 0 up to a limit. -/
def number? (limit : Nat) : Value → Option Nat
  | .integer (.ofNat n) => if n ≤ limit then some n else none
  | _ => none

/-- A number of 8 bits. -/
def byte? (v : Value) : Option UInt8 := (number? 255 v).map (·.toUInt8)

/-- A number of 16 bits. -/
def word? (v : Value) : Option UInt16 := (number? 65535 v).map (·.toUInt16)

/-- A number of 64 bits. -/
def natural? : Value → Option Nat := number? (Nat.pow 2 64 - 1)

/-- The key under which a date stands where variables are expected. -/
def dateKey : String := "$__toml_private_datetime"

/-- Variables with their values. -/
def environment? : Value → Option (List (String × String))
  | .table _ entries => entries.mapM fun (key, v) ↦ (text? v).map fun s ↦ (key, s)
  | .datetime d => some [(dateKey, d.display)]
  | _ => none

/-- The settings of sessions. -/
def session? (v : Value) : Option SessionSection := do
  let s ← Source.ofValue? v
  guard (s.reaches 10)
  return {
    defaultShell := ← s.setting 0 "default_shell" (fun v ↦ (text? v).map some) none
    term := ← s.setting 1 "term" text? defaultTerm
    rows := ← s.setting 2 "rows" word? defaultRows
    cols := ← s.setting 3 "cols" word? defaultCols
    workingDir := ← s.setting 4 "working_dir" (fun v ↦ (text? v).map some) none
    gracePeriodMs := ← s.setting 5 "grace_period_ms" natural? defaultGracePeriodMs
    terminateSignal := ← s.setting 6 "terminate_signal" text? defaultTerminateSignal
    xonXoff := ← s.setting 7 "xon_xoff" flag? false
    utf8 := ← s.setting 8 "utf8" flag? defaultUtf8
    erase := ← s.setting 9 "erase" (fun v ↦ (byte? v).map some) none
    autoClose := ← s.setting 10 "auto_close" flag? defaultAutoClose
    monitorActivity := ← s.setting 11 "monitor_activity" flag? false
    monitorSilence := ← s.setting 12 "monitor_silence" flag? false
    silenceSeconds := ← s.setting 13 "silence_seconds" natural? defaultSilenceSeconds
    env := ← s.setting 14 "env" environment? [] }

/-- The settings of the permission helper. -/
def broker? (v : Value) : Option BrokerSection := do
  let s ← Source.ofValue? v
  guard (s.reaches 1)
  return ⟨← s.setting 0 "program" (fun v ↦ (text? v).map some) none⟩

/-- The settings of the registry. -/
def registry? (v : Value) : Option RegistrySection := do
  let s ← Source.ofValue? v
  return ⟨← s.setting 0 "max_sessions" natural? defaultMaxSessions⟩

/-- The settings of logging. -/
def logging? (v : Value) : Option LoggingSection := do
  let s ← Source.ofValue? v
  return ⟨← s.setting 0 "level" text? defaultLevel⟩

/-- The configuration in the table of a document. -/
def ofEntries? (entries : Entries) : Option Config := do
  let s := Source.keyed entries
  return {
    session := ← s.setting 0 "session" session? {}
    broker := ← s.setting 1 "broker" broker? {}
    registry := ← s.setting 2 "registry" registry? {}
    logging := ← s.setting 3 "logging" logging? {} }

end PtyHost.Config
