import PtyHost.Pty.Device
import PtyHost.WindowSize

/-!
# Allocating terminals

An allocator owns the master of one pseudo-terminal at a time. It keeps the name of the slave while
the master is open, and a note of whether a slave was handed out. Closing the master leaves the note
as it is: it is about the last master, until the next one has been opened.

Each operation is given what the operating system would answer to all the calls that it may make,
and tells which calls it has made.

Main statements: `device_openMaster` and `device_openSlave`, an allocator seen as a device does what
the device does.
-/

namespace PtyHost.Pty

/-- A call on the operating system: one of those that open a master, the setting up of the new
descriptor, the opening of a slave, a change of the window size, the reading and writing of the
permissions of a slave, the duplication of a master, and its closing. -/
inductive Call
  | opening (c : OpenCall)
  | setUp
  | openSlave (slave : Path)
  | setWindow (size : WindowSize)
  | readMode (slave : Path)
  | writeMode (slave : Path) (mode : Nat)
  | duplicate
  | close
deriving DecidableEq, Repr

/-- What the operating system answers to the calls that open a master. -/
structure Opening where
  allocate : Except String Unit := .ok ()
  grant : Except String Unit := .ok ()
  unlock : Except String Unit := .ok ()
  name : Except String Path
  setUp : Except OsError Unit := .ok ()

namespace Opening

/-- What the calls come to: the name of the slave, or the first failure. -/
def outcome (o : Opening) : Except OpenFailure Path := do
  o.allocate.mapError (.call .allocate)
  o.grant.mapError (.call .grant)
  o.unlock.mapError (.call .unlock)
  let slave ← o.name.mapError (.call .name)
  o.setUp.mapError .flags
  return slave

/-- The calls that are made of some, each with whether it would succeed: all up to the first that
fails. -/
def untilFailure : List (Call × Bool) → List Call
  | [] => []
  | (c, succeeds) :: rest => c :: if succeeds then untilFailure rest else []

/-- The calls that are made. A master that was allocated is closed again if a later call fails. -/
def calls (o : Opening) : List Call :=
  untilFailure
    [(.opening .allocate, o.allocate.toBool), (.opening .grant, o.grant.toBool),
      (.opening .unlock, o.unlock.toBool), (.opening .name, o.name.toBool),
      (.setUp, o.setUp.toBool)] ++
    if o.allocate.toBool && !o.outcome.toBool then [.close] else []

end Opening

/-- An operation, with the answers of the operating system to the calls that it may make. -/
inductive Operation
  | openMaster (o : Opening)
  | openSlave (answer : Except OsError Unit)
  | close
  | setWindowSize (size : WindowSize) (answer : Except OsError Unit)
  | setWriteable (allowed : Bool) (mode : Except OsError Nat) (answer : Except OsError Unit)
  | duplicate (answer : Except OsError Unit)

/-- What is kept of a terminal: the name of the slave while the master is open, and whether the
slave of the last master was handed out. -/
structure Allocator where
  slave? : Option Path := none
  handedOut : Bool := false
deriving DecidableEq, Repr

/-- What an operation comes to: what is kept, the calls that were made, and the verdict. -/
structure Report where
  allocator : Allocator
  calls : List Call := []
  verdict : Except SessionError Unit := .ok ()

namespace Allocator

/-- Whether a master is open. -/
def isOpen (d : Allocator) : Bool := d.slave?.isSome

/-- The device that an allocator keeps. -/
def device (d : Allocator) : Device :=
  match d.slave? with
  | none => .closed
  | some slave => .opened slave d.handedOut

/-- The permissions that are kept of a file's mode. -/
def permissions : Nat := 0o7777

/-- Opens a master, unless one is open. Only a master that is there makes its slave free. -/
def openMaster (d : Allocator) (o : Opening) : Report where
  allocator :=
    match d.slave?, o.outcome with
    | none, .ok slave => ⟨some slave, false⟩
    | _, _ => d
  calls := if d.isOpen then [] else o.calls
  verdict := (d.device.openMaster o.outcome).map fun _ ↦ ()

/-- Opens the slave, unless there is none or it was handed out. -/
def openSlave (d : Allocator) (answer : Except OsError Unit) : Report where
  allocator :=
    match d.slave?, d.handedOut, answer with
    | some _, false, .ok () => { d with handedOut := true }
    | _, _, _ => d
  calls :=
    match d.slave?, d.handedOut with
    | some slave, false => [.openSlave slave]
    | _, _ => []
  verdict := (d.device.openSlave answer).map fun _ ↦ ()

/-- Closes the master, if one is open. -/
def close (d : Allocator) : Report where
  allocator := { d with slave? := none }
  calls := if d.isOpen then [.close] else []

/-- Makes calls on an open master. -/
def request (d : Allocator) (calls : Path → List Call) (answer : Except OsError Unit) : Report where
  allocator := d
  calls := d.slave?.elim [] calls
  verdict := d.device.request answer

/-- Does an operation. -/
def perform (d : Allocator) : Operation → Report
  | .openMaster o => d.openMaster o
  | .openSlave answer => d.openSlave answer
  | .close => d.close
  | .setWindowSize size answer => d.request (fun _ ↦ [.setWindow size]) answer
  | .setWriteable allowed (.ok mode) answer =>
    d.request
      (fun slave ↦
        [.readMode slave, .writeMode slave (messageMode (mode &&& permissions) allowed)]) answer
  | .setWriteable _ (.error e) _ => d.request (fun slave ↦ [.readMode slave]) (.error e)
  | .duplicate answer => d.request (fun _ ↦ [.duplicate]) answer

/-- The device is open exactly if a master is. -/
@[simp] theorem isOpen_device (d : Allocator) : d.device.isOpen = d.isOpen := by
  unfold device isOpen
  cases d.slave? <;> rfl

/-- Opening a master is opening that of the device. -/
theorem device_openMaster (d : Allocator) (o : Opening) :
    d.device.openMaster o.outcome =
      (d.openMaster o).verdict.map fun () ↦ (d.openMaster o).allocator.device := by
  unfold openMaster device
  cases d.slave? <;> cases o.outcome <;> rfl

/-- Opening the slave is opening that of the device. -/
theorem device_openSlave (d : Allocator) (answer : Except OsError Unit) :
    d.device.openSlave answer =
      (d.openSlave answer).verdict.map fun () ↦ (d.openSlave answer).allocator.device := by
  unfold openSlave device
  cases d.slave? <;> cases d.handedOut <;> cases answer <;> rfl

end Allocator

end PtyHost.Pty
