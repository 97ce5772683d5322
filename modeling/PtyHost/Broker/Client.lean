import PtyHost.Broker.Mode
import PtyHost.Config.Basic
import PtyHost.ExitStatus
import PtyHost.Session.Error

/-!
# Asking the permission helper

A session does not change permissions itself. It runs the helper, with the flag of what it wants
and with its master on a fixed descriptor, and learns from the helper's end whether that was done.

Main statement: `answer_eq_ok_iff`.
-/

namespace PtyHost.Broker

/-- The descriptor on which the helper inherits the master. -/
def masterSlot : Nat := 3

/-- What came of running the helper: it could not be started, or it ended after it printed a
diagnostic. -/
inductive HelperRun
  | notStarted (e : OsError)
  | ended (status : ExitStatus) (diagnostic : Bytes)
deriving DecidableEq, Repr

/-- The end of a helper that was killed, in words. -/
def killedText (signal : Int) (coreDumped : Bool) : String :=
  let name := ((Signal.ofNumber? signal).map fun s ↦ " (" ++ s.name ++ ")").getD ""
  s!"helper terminated abnormally (signal: {signal}{name}" ++
    (if coreDumped then " (core dumped))" else ")")

/-- What a run of the helper means to the session. -/
def HelperRun.answer (program : Path) : HelperRun → Except SessionError Unit
  | .notStarted e => .error (.brokerUnavailable program e.message)
  | .ended (.signaled signal coreDumped) _ =>
    .error (.brokerUnavailable program (killedText signal coreDumped))
  | .ended (.exited code) diagnostic =>
    match Error.ofExitCode? code (Utf8.decodeLossy diagnostic) with
    | none => .ok ()
    | some e => .error (.broker e)

/-- Who is asked for permissions: nobody, if the operating system has attributed the slave
already, or a helper. -/
inductive Client
  | nobody
  | helper (program : Path)
deriving DecidableEq, Repr

/-- The client of a configuration. -/
def Client.ofConfig (c : Config.BrokerSection) : Client :=
  match c.program with
  | none => .nobody
  | some program => .helper (.ofText program)

/-- Only a helper that exits with the code 0 has done what it was asked for. -/
theorem HelperRun.answer_eq_ok_iff {program : Path} {r : HelperRun} :
    r.answer program = .ok () ↔ ∃ diagnostic, r = .ended (.exited 0) diagnostic := by
  match r with
  | .notStarted e => simp [answer]
  | .ended (.signaled signal coreDumped) d => simp [answer]
  | .ended (.exited code) d =>
    by_cases h : Error.ofExitCode? code (Utf8.decodeLossy d) = none
    · have hc : code = 0 := Error.ofExitCode?_eq_none_iff.1 h
      subst hc
      simp [answer, h]
    · obtain ⟨e, he⟩ := Option.ne_none_iff_exists'.1 h
      have hc : code ≠ 0 := fun hc ↦ h (Error.ofExitCode?_eq_none_iff.2 hc)
      simp [answer, he, hc]

end PtyHost.Broker
