import PtyHost.Pty.Device
import PtyHost.Pty.LineSettings
import PtyHost.Text.Bytes
import PtyHost.WindowSize

/-!
# Terminals of a machine

A pseudo-terminal as the kernel of a machine keeps it, from the opening of its master on. What is
written on one side waits until it is read on the other.
-/

namespace PtyHost.Machine

/-- Whether the slave of a terminal has been opened, and whether anybody still has it open. -/
inductive SlaveSide
  | unopened
  | held
  | closed
deriving DecidableEq, Repr

/-- A terminal: its window size, its line settings, whether output is processed, the permissions of
its slave, who has the slave open, and what waits to be read by the slave and by the master. -/
structure Terminal where
  window : WindowSize := ⟨0, 0⟩
  line : Pty.LineState := {}
  processed : Bool := true
  mode : Nat := 0o600
  slave : SlaveSide := .unopened
  input : Bytes := []
  output : Bytes := []
deriving DecidableEq, Repr

/-- Output as a terminal shows it that processes output: a line feed also returns to the first
column. -/
def withReturns (data : Bytes) : Bytes :=
  data.flatMap fun b ↦ if b = 0x0A then [0x0D, 0x0A] else [b]

namespace Terminal

/-- Opens the slave. -/
def openSlave (t : Terminal) : Terminal := { t with slave := .held }

/-- Closes the slave, so that nobody has it open. -/
def closeSlave (t : Terminal) : Terminal :=
  { t with slave := match t.slave with
    | .held => .closed
    | side => side }

/-- Whether the slave was open and is not any more. -/
def hungUp (t : Terminal) : Bool := t.slave = .closed

/-- Leaves input and output as they are. -/
def makeRaw (t : Terminal) : Terminal := { t with processed := false }

/-- Sets the line up. -/
def configure (t : Terminal) (s : Pty.LineSettings) : Terminal :=
  { t with line := t.line.configured s }

/-- Allows or forbids messages. -/
def setMessages (t : Terminal) (allowed : Bool) : Terminal :=
  { t with mode := Pty.messageMode t.mode allowed }

/-- Writes on the slave's side. -/
def print (t : Terminal) (data : Bytes) : Terminal :=
  { t with output := t.output ++ if t.processed then withReturns data else data }

/-- Writes on the master's side. -/
def type (t : Terminal) (data : Bytes) : Terminal := { t with input := t.input ++ data }

/-- What the master reads next, at most `limit` bytes of it, and the terminal after that. -/
def read (t : Terminal) (limit : Nat) : Bytes × Terminal :=
  (t.output.take limit, { t with output := t.output.drop limit })

end Terminal

end PtyHost.Machine
