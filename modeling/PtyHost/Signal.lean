import PtyHost.Text.Blank

/-!
# Signals

The signals of Linux on x86-64 that have a name of their own, with their numbers, and how a
signal is named in a configuration.

Main statement: `ofName?_eq_some_iff` says which names a signal has.
-/

namespace PtyHost

/-- A signal. -/
inductive Signal
  | hup
  | int
  | quit
  | ill
  | trap
  | abrt
  | bus
  | fpe
  | kill
  | usr1
  | segv
  | usr2
  | pipe
  | alrm
  | term
  | stkflt
  | chld
  | cont
  | stop
  | tstp
  | ttin
  | ttou
  | urg
  | xcpu
  | xfsz
  | vtalrm
  | prof
  | winch
  | io
  | pwr
  | sys
deriving DecidableEq, Repr

namespace Signal

/-- All signals, in the order of their numbers. -/
def all : List Signal :=
  [.hup, .int, .quit, .ill, .trap, .abrt, .bus, .fpe, .kill, .usr1, .segv, .usr2, .pipe,
    .alrm, .term, .stkflt, .chld, .cont, .stop, .tstp, .ttin, .ttou, .urg, .xcpu, .xfsz,
    .vtalrm, .prof, .winch, .io, .pwr, .sys]

/-- The number of a signal. -/
def number (s : Signal) : Nat := all.idxOf s + 1

/-- The signal with a number. -/
def ofNumber? (n : Int) : Option Signal := all.find? fun s ↦ (s.number : Int) = n

/-- The canonical name without the leading `SIG`. -/
def stem : Signal → String
  | .hup => "HUP"
  | .int => "INT"
  | .quit => "QUIT"
  | .ill => "ILL"
  | .trap => "TRAP"
  | .abrt => "ABRT"
  | .bus => "BUS"
  | .fpe => "FPE"
  | .kill => "KILL"
  | .usr1 => "USR1"
  | .segv => "SEGV"
  | .usr2 => "USR2"
  | .pipe => "PIPE"
  | .alrm => "ALRM"
  | .term => "TERM"
  | .stkflt => "STKFLT"
  | .chld => "CHLD"
  | .cont => "CONT"
  | .stop => "STOP"
  | .tstp => "TSTP"
  | .ttin => "TTIN"
  | .ttou => "TTOU"
  | .urg => "URG"
  | .xcpu => "XCPU"
  | .xfsz => "XFSZ"
  | .vtalrm => "VTALRM"
  | .prof => "PROF"
  | .winch => "WINCH"
  | .io => "IO"
  | .pwr => "PWR"
  | .sys => "SYS"

/-- The canonical name. -/
def name (s : Signal) : String := "SIG" ++ s.stem

/-- The name in full of what a configuration calls a signal: without blanks around it, in ASCII
capitals, and with `SIG` in front. -/
def fullName (s : String) : String :=
  let upper := (Text.trimmed s).toList.map Char.toUpper
  if "SIG".toList.isPrefixOf upper then String.ofList upper else "SIG" ++ String.ofList upper

/-- The signal that a configuration names. -/
def ofName? (s : String) : Option Signal := all.find? fun t ↦ t.name = fullName s

/-- Every signal is listed. -/
theorem mem_all (s : Signal) : s ∈ all := by cases s <;> decide

/-- Different signals have different names. -/
theorem name_injective {s t : Signal} (h : s.name = t.name) : s = t := by
  have all_pairs : ∀ s ∈ all, ∀ t ∈ all, s.name = t.name → s = t := by decide +kernel
  exact all_pairs s (mem_all s) t (mem_all t) h

/-- A signal is named by its canonical name in full, and by nothing else. -/
theorem ofName?_eq_some_iff {n : String} {s : Signal} :
    ofName? n = some s ↔ fullName n = s.name := by
  rw [ofName?]
  constructor
  · intro h
    have hname := List.find?_some h
    rw [decide_eq_true_eq] at hname
    exact hname.symm
  · intro h
    cases hf : all.find? fun t ↦ t.name = fullName n with
    | none =>
      have hne := List.find?_eq_none.1 hf s (mem_all s)
      rw [decide_eq_true_eq] at hne
      exact absurd h.symm hne
    | some t =>
      have hname := List.find?_some hf
      rw [decide_eq_true_eq] at hname
      rw [name_injective (hname.trans h)]

end Signal

end PtyHost
