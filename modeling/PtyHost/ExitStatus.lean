import PtyHost.Signal

/-!
# How a program ends

A program ends by itself, with a code, or is killed by a signal. The operating system packs this
into one number, and a shell shows it as one.
-/

namespace PtyHost

/-- How a program ended. -/
inductive ExitStatus
  | exited (code : Int)
  | signaled (signal : Int) (coreDumped : Bool)
deriving DecidableEq, Repr

namespace ExitStatus

/-- Reads a wait status of Linux: its low 7 bits are 0 for a program that exited, with the code in
the next byte but one bit, and else the signal that killed it, with a bit for the memory dump. A
program that is only stopped or continued counts as exited with -1. -/
def ofWaitStatus (raw : Int) : ExitStatus :=
  let word : Nat := (raw % (Nat.pow 2 32 : Int)).toNat
  let low : Nat := word % 128
  if low = 0 then .exited (word / 256 % 256 : Nat)
  else if low = 127 then .exited (-1)
  else .signaled low (word / 128 % 2 = 1)

/-- The number by which a shell reports the end: the code, or 128 more than the signal. -/
def code : ExitStatus → Int
  | .exited code => code
  | .signaled signal _ => 128 + signal

/-- Whether the program ended well. -/
def success (s : ExitStatus) : Bool := s = .exited 0

/-- The canonical name of a signal number. -/
def signalName (signal : Int) : String := ((Signal.ofNumber? signal).map (·.name)).getD "unknown"

/-- The end of a program in words. -/
def display : ExitStatus → String
  | .exited code => s!"exited with status {code}"
  | .signaled signal coreDumped =>
    s!"killed by signal {signal} ({signalName signal})" ++
      if coreDumped then ", core dumped" else ""

end ExitStatus

end PtyHost
