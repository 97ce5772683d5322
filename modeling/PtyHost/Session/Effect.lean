import PtyHost.Broker.Mode
import PtyHost.Child
import PtyHost.Pty.Device
import PtyHost.Pty.LineSettings
import PtyHost.WindowSize

/-!
# What a session does

The notifications that a session sends to its owner, and everything else that it does to the world
around it, in the order in which it happens. The answers of that world are collected in one
record, of which each operation uses what it asks for.
-/

namespace PtyHost

/-- The number of a session. -/
abbrev SessionId := Nat

/-- What a session tells its owner. -/
inductive Notification
  | titleChanged (id : SessionId)
  | resizeRequested (id : SessionId) (size : WindowSize)
  | bell (id : SessionId)
  | activity (id : SessionId)
  | silence (id : SessionId)
  | finished (id : SessionId) (status : ExitStatus)
deriving DecidableEq, Repr

/-- The session that a notification comes from. -/
def Notification.id : Notification → SessionId
  | .titleChanged id | .resizeRequested id _ | .bell id | .activity id | .silence id
  | .finished id _ => id

/-- One thing that a session does: tell its owner something, open or close its master, ask the
permission helper for something, and whether that succeeded, set the window size or the line
settings, hand out the slave, start a program, allow or forbid messages on the slave, send a signal
to the program's process group, queue input, write to the master, hand output to the emulation, or
let go of a program that is still running, which kills it. -/
inductive Effect
  | notified (n : Notification)
  | openedMaster
  | closedMaster
  | requested (mode : Broker.Mode) (succeeded : Bool)
  | sizedWindow (size : WindowSize)
  | openedSlave
  | configuredLine (settings : Pty.LineSettings)
  | spawned (pid : Pid)
  | setMessages (allowed : Bool)
  | signalled (pid : Pid) (signal : Signal)
  | queued (data : Bytes)
  | wrote (data : Bytes)
  | fed (block : Bytes)
  | abandoned (pid : Pid)
deriving DecidableEq, Repr

/-- What the world around a session answers, and what time it is. -/
structure Answers where
  now : Nat := 0
  openMaster : Except Pty.OpenFailure Path := .ok ⟨[]⟩
  grant : Except SessionError Unit := .ok ()
  revoke : Except SessionError Unit := .ok ()
  setWindowSize : Except OsError Unit := .ok ()
  openSlave : Except OsError Unit := .ok ()
  configureLine : Except OsError Unit := .ok ()
  duplicate : Except OsError Unit := .ok ()
  spawn : Except OsError Pid := .ok 1
  setMessages : Except OsError Unit := .ok ()
  deliver : Except OsError Unit := .ok ()

end PtyHost
