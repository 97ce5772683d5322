import PtyHost.Machine.Host
import PtyHost.Pty.Allocator
import PtyHost.Session.Error

/-!
# Devices and programs operated by hand

A device without a session: its terminal, and its slave, which may be kept open for as long as one
likes. And a program on a terminal without a session, which is waited for by hand.
-/

namespace PtyHost.Machine

/-- What is kept of a slave that was handed out: nothing, the slave, or what is left of it after
its master was closed. -/
inductive Kept
  | nothing
  | slave
  | remnant
deriving DecidableEq, Repr

/-- A device with the terminal behind it. -/
structure Rig where
  device : Pty.Allocator := {}
  terminal : Terminal := {}
  kept : Kept := .nothing
deriving DecidableEq, Repr

namespace Rig

/-- Has an operation done on the device, and goes on from there if it succeeds. -/
def operate (r : Rig) (o : Pty.Operation) (f : Rig → Rig) : Except SessionError Rig :=
  let report := r.device.perform o
  report.verdict.map fun () ↦ f { r with device := report.allocator }

/-- Opens a master whose slave has a name. -/
def openMaster (r : Rig) (slave : Path) : Except SessionError Rig :=
  r.operate (.openMaster { name := .ok slave }) fun r ↦ { r with terminal := {} }

/-- Opens the slave and keeps it. -/
def openSlave (r : Rig) : Except SessionError Rig :=
  r.operate (.openSlave (.ok ())) fun r ↦
    { r with terminal := r.terminal.openSlave, kept := .slave }

/-- Closes the slave that is kept. -/
def dropSlave (r : Rig) : Rig :=
  { r with
    kept := .nothing
    terminal := if r.kept = .slave then r.terminal.closeSlave else r.terminal }

/-- Closes the master. -/
def close (r : Rig) : Rig where
  device := (r.device.perform .close).allocator
  terminal := r.terminal
  kept := match r.kept with
    | .nothing => .nothing
    | _ => .remnant

/-- Sets the window size. -/
def setWindowSize (r : Rig) (size : WindowSize) : Except SessionError Rig :=
  r.operate (.setWindowSize size (.ok ())) fun r ↦
    { r with terminal := { r.terminal with window := size } }

/-- Allows or forbids messages. -/
def setMessages (r : Rig) (allowed : Bool) : Except SessionError Rig :=
  r.operate (.setWriteable allowed (.ok r.terminal.mode) (.ok ())) fun r ↦
    { r with terminal := r.terminal.setMessages allowed }

/-- The window size, asked for through a duplicate of the master. -/
def window (r : Rig) : Except SessionError WindowSize :=
  (r.device.perform (.duplicate (.ok ()))).verdict.map fun () ↦ r.terminal.window

/-- Sets up the line of the slave that is kept. Anything else is no terminal. -/
def configureLine (r : Rig) (s : Pty.LineSettings) : Except SessionError Rig :=
  match r.kept with
  | .nothing => .error (.device .notATerminal)
  | .slave => .ok { r with terminal := r.terminal.configure s }
  | .remnant => .error (.device .hangup)

/-- The line settings of the slave that is kept. -/
def line? (r : Rig) : Option Pty.LineState :=
  if r.kept = .slave then some r.terminal.line else none

/-- Writes to the slave that is kept. -/
def write? (r : Rig) (data : Bytes) : Option Rig :=
  if r.kept = .slave then some { r with terminal := r.terminal.print data } else none

/-- Reads what waits on the master. There is an error if nothing does. -/
def read (r : Rig) : Except OsError Bytes × Rig :=
  let (data, terminal) := r.terminal.read r.terminal.output.length
  if data ≠ [] then (.ok data, { r with terminal })
  else (.error (if terminal.hungUp then .hangup else .wouldBlock), r)

end Rig

/-- A program on a terminal: the terminal, its process, what was read of its output so far, and what
is known of its end. -/
structure Job where
  terminal : Terminal
  process : Process
  child : Child
  seen : Bytes := []
deriving DecidableEq, Repr

namespace Job

/-- Starts a program on a fresh terminal. -/
def start (h : Host) (l : Launch) : Except SessionError Job :=
  match h.start l with
  | .error e => .error (.execFailed l.program e)
  | .ok start =>
    let (process, terminal) := start.on (Terminal.openSlave {})
    .ok { terminal, process, child := ⟨1, none⟩ }

/-- Lets the process go on. -/
def settle (j : Job) : Job :=
  let (process, terminal) := j.process.run j.terminal
  { j with process, terminal }

/-- All output so far. -/
def output (j : Job) : Bytes := j.seen ++ j.terminal.output

/-- Reads what waits. -/
def read (j : Job) : Job :=
  { j with seen := j.output, terminal := { j.terminal with output := [] } }

/-- Writes input, if there is anybody to read it. -/
def write? (j : Job) (data : Bytes) : Option Job :=
  if j.terminal.hungUp then none else some { j with terminal := j.terminal.type data }.settle

/-- Sends a signal. There is no process any more once its end has been learnt of. -/
def signal (j : Job) (s : Signal) : Except SessionError Job :=
  if j.child.isRunning then .ok { j with process := j.process.deliver s }.settle
  else .error (.device .noProcess)

/-- Looks whether the process has ended. -/
def wait (j : Job) : Job := { j with child := j.child.learn j.process.status }

end Job

end PtyHost.Machine
