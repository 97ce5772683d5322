import PtyHost.ExitStatus

/-!
# Programs that were started

A program that was started has a number and, once its end has been learnt of, a status. The first
status that is learnt is kept.
-/

namespace PtyHost

/-- The number of a process, which is that of its process group too. -/
abbrev Pid := Nat

/-- A program that was started, with the status that it was reaped with, if it was. -/
structure Child where
  pid : Pid
  reaped : Option ExitStatus := none
deriving DecidableEq, Repr

namespace Child

/-- Whether the program is not known to have ended. -/
def isRunning (c : Child) : Bool := c.reaped.isNone

/-- Takes note of what the operating system tells of the program's end, if there is anything to
tell. -/
def learn (c : Child) (status : Option ExitStatus) : Child :=
  { c with reaped := c.reaped.or status }

end Child

end PtyHost
