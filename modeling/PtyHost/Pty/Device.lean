import PtyHost.Session.Error

/-!
# Pseudo-terminal devices

A device owns the master side of one pseudo-terminal at a time, and hands out the slave side of
each master once. What the operating system answers is an argument of every operation, so that an
operation is a function from one device to the next.

Main statements: `openMaster_eq_ok_iff` and `openSlave_eq_ok_iff` say exactly when the two sides are
opened.
-/

namespace PtyHost.Pty

/-- The calls that open a master. -/
inductive OpenCall
  | allocate
  | grant
  | unlock
  | name
deriving DecidableEq, Repr

/-- The name of a call. -/
def OpenCall.text : OpenCall → String
  | .allocate => "posix_openpt"
  | .grant => "grantpt"
  | .unlock => "unlockpt"
  | .name => "ptsname"

/-- Why no master could be opened: one of the calls failed, or the new descriptor could not be set
up. -/
inductive OpenFailure
  | call (c : OpenCall) (reason : String)
  | flags (cause : OsError)
deriving DecidableEq, Repr

/-- The failure as one of the session. -/
def OpenFailure.error : OpenFailure → SessionError
  | .call c reason => .deviceUnavailable (c.text ++ ": " ++ reason)
  | .flags cause => .device cause

/-- A device: closed, or open, with the name of its slave and whether that was handed out. -/
inductive Device
  | closed
  | opened (slave : Path) (taken : Bool)
deriving DecidableEq, Repr

namespace Device

/-- Whether a master is open. -/
def isOpen : Device → Bool
  | .closed => false
  | .opened .. => true

/-- The name of the slave, while the master is open. -/
def slave? : Device → Option Path
  | .closed => none
  | .opened slave _ => some slave

/-- Opens a master, of which the operating system tells the name of the slave. -/
def openMaster (d : Device) (answer : Except OpenFailure Path) : Except SessionError Device :=
  match d with
  | .opened .. => .error (.deviceUnavailable "pty master is already open")
  | .closed =>
    match answer with
    | .ok slave => .ok (.opened slave false)
    | .error e => .error e.error

/-- Hands out the slave. -/
def openSlave (d : Device) (answer : Except OsError Unit) : Except SessionError Device :=
  match d with
  | .closed => .error (.deviceUnavailable "slave requested before master was opened")
  | .opened slave true =>
    .error (.deviceUnavailable ("slave " ++ slave.display ++ " is already open"))
  | .opened slave false =>
    match answer with
    | .ok () => .ok (.opened slave true)
    | .error e =>
      .error (.deviceUnavailable ("cannot open " ++ slave.display ++ ": " ++ e.message))

/-- What the operating system answers to a request to the open master. -/
def request {α : Type} (d : Device) (answer : Except OsError α) : Except SessionError α :=
  match d, answer with
  | .closed, _ => .error .notRunning
  | .opened .., .ok a => .ok a
  | .opened .., .error e => .error (.device e)

/-- A master is opened only if none is open, and its slave has not been handed out then. -/
theorem openMaster_eq_ok_iff {d e : Device} {answer : Except OpenFailure Path} :
    d.openMaster answer = .ok e ↔
      d = .closed ∧ ∃ slave, answer = .ok slave ∧ e = .opened slave false := by
  cases d <;> cases answer <;> simp [openMaster, eq_comm]

/-- The slave is handed out only if the master is open and it has not been handed out before. -/
theorem openSlave_eq_ok_iff {d e : Device} {answer : Except OsError Unit} :
    d.openSlave answer = .ok e ↔
      ∃ slave, d = .opened slave false ∧ answer = .ok () ∧ e = .opened slave true := by
  match d, answer with
  | .closed, _ => simp [openSlave]
  | .opened _ true, _ => simp [openSlave]
  | .opened _ false, .ok () => simp [openSlave, eq_comm]
  | .opened _ false, .error _ => simp [openSlave]

end Device

/-- The permission of the group to write. -/
def groupWrite : Nat := 0o020

/-- The permissions of group and others to write. -/
def othersWrite : Nat := 0o022

/-- The permissions of a slave that other users may or may not write messages to. -/
def messageMode (mode : Nat) (allowed : Bool) : Nat :=
  if allowed then mode ||| groupWrite else mode - (mode &&& othersWrite)

end PtyHost.Pty
