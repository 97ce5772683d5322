import PtyHost.Emulation.Basic
import PtyHost.Launch
import PtyHost.Session.Effect
import PtyHost.Session.Options

/-!
# Sessions

One pseudo-terminal with the program that runs on it and an emulation that gets its output.

A session is idle, then running, then terminated, and terminated for good. Each operation is a
function that gives the next session and the trace of what it did.
-/

namespace PtyHost

/-- What there is only while a program is running: its process, the input queued for it, the
oldest first, whether there may be more output, whether reading is suspended, and when the silence
countdown ends. -/
structure Running where
  child : Child
  pending : List Bytes := []
  readOpen : Bool := true
  locked : Bool := false
  silenceAt : Option Nat := none
deriving DecidableEq, Repr

/-- What a session says of itself. -/
inductive SessionState
  | idle
  | running
  | terminated
deriving DecidableEq, Repr

/-- How far a session has come: what it says of itself, what there is of a running program, and the
status of one that has ended. Operations set the three one by one. -/
structure Phase where
  state : SessionState := .idle
  running? : Option Running := none
  exitStatus? : Option ExitStatus := none
deriving DecidableEq, Repr

namespace Phase

/-- Nothing has run yet. -/
abbrev idle : Phase := {}

/-- A program is running. -/
abbrev running (r : Running) : Phase := { state := .running, running? := some r }

/-- The program has ended. -/
abbrev terminated (status : ExitStatus) : Phase :=
  { state := .terminated, exitStatus? := some status }

/-- Whether the three go together. -/
def WellFormed (p : Phase) : Prop :=
  p = .idle ∨ (∃ r, p = .running r) ∨ ∃ status, p = .terminated status

end Phase

/-- The titles of a session: its own, that of the program, and two of its icon. -/
structure Titles where
  title : String := ""
  userTitle : String := ""
  iconText : String := ""
  iconName : String := ""
deriving DecidableEq, Repr

/-- A session. `granted` says that the slave is attributed to the user, and `notified` that output
has been announced since the last quiet spell. -/
structure Session (ε : Type) where
  id : SessionId
  options : SessionOptions
  emulation : ε
  size : WindowSize
  phase : Phase := .idle
  device : Pty.Device := .closed
  granted : Bool := false
  program : String := ""
  titles : Titles := {}
  keymap : String := ""
  outputLocked : Bool := false
  notified : Bool := false
deriving DecidableEq, Repr

/-- How an operation ended: with a value, with a failure, or because a point in time was asked for
that the clock cannot show. -/
inductive Verdict (α : Type)
  | done (value : α)
  | failed (e : SessionError)
  | overflow
deriving DecidableEq, Repr

/-- A session and what was done to get there. -/
structure Traced (ε : Type) where
  session : Session ε
  trace : List Effect := []
deriving DecidableEq, Repr

/-- A session, what was done to get there, and how that ended. -/
structure Outcome (ε α : Type) extends Traced ε where
  verdict : Verdict α
deriving DecidableEq, Repr

namespace Traced

variable {ε : Type}

/-- Goes on with what has been reached. -/
def andThen (t : Traced ε) (f : Session ε → Traced ε) : Traced ε :=
  let next := f t.session
  ⟨next.session, t.trace ++ next.trace⟩

/-- Ends with a verdict. -/
def ending {α : Type} (t : Traced ε) (v : Verdict α) : Outcome ε α := { t with verdict := v }

end Traced

/-- The title that shows that a program has ended. -/
def Titles.finished : String := "<Finished>"

/-- The titles after one of a kind was set, or `none` for a kind that there is not. -/
def Titles.put? (t : Titles) (what : UInt16) (caption : String) : Option Titles :=
  if what = 0 then some { t with userTitle := caption, iconText := caption }
  else if what = 1 then some { t with iconText := caption }
  else if what = 2 then some { t with userTitle := caption }
  else if what = 30 then some { t with title := caption }
  else if what = 32 then some { t with iconName := caption }
  else none

/-- The session's own title, followed by that of the program. -/
def Titles.display (t : Titles) : String :=
  if t.userTitle = "" then t.title
  else if t.title = "" then t.userTitle
  else t.title ++ " - " ++ t.userTitle

namespace Session

variable {ε : Type}

/-- A session that has not run anything yet. -/
def new (id : SessionId) (options : SessionOptions) (emulation : ε) : Session ε :=
  { id, options, emulation, size := options.size }

/-- What there is while a program is running. -/
def running? (s : Session ε) : Option Running := s.phase.running?

/-- The status of the program that ran. -/
def exitStatus? (s : Session ε) : Option ExitStatus := s.phase.exitStatus?

/-- Whether a program is running. -/
def isRunning (s : Session ε) : Bool := s.phase.state = .running

/-- Whether the program has ended. -/
def isTerminated (s : Session ε) : Bool := s.phase.state = .terminated

/-- What there is of the program of a session that is running. -/
def current? (s : Session ε) : Option Running := if s.isRunning then s.running? else none

/-- The process of the running program. -/
def pid? (s : Session ε) : Option Pid := s.running?.map (·.child.pid)

/-- Puts something else in the place of what there is while a program is running. -/
def setRunning (s : Session ε) (r : Running) : Session ε := { s with phase.running? := some r }

/-- Changes what there is while a program is running. -/
def modifyRunning (s : Session ε) (f : Running → Running) : Session ε :=
  match s.running? with
  | some r => s.setRunning (f r)
  | none => s

/-- What is done for a program to be started. -/
def launch (s : Session ε) (program : String) (args : List String) (term : String) : Launch :=
  { program, args, term, env := s.options.env, workingDir := s.options.workingDir }

/-- Lets go of what there was of a running program, gives the slave back if it was granted, and
closes the master. -/
def release (s : Session ε) (a : Answers) : Traced ε where
  session := { s with phase.running? := none, granted := false, device := .closed }
  trace :=
    (if s.granted ∧ s.device.isOpen then [.requested .revoke a.revoke.toBool] else []) ++
      if s.device.isOpen then [.closedMaster] else []

/-- Lets go of a session. A program that is still running is killed, and its terminal is given
back. -/
def drop (s : Session ε) (a : Answers) : List Effect :=
  let killed :=
    match s.running? with
    | some ⟨⟨pid, none⟩, _, _, _, _⟩ => [.signalled pid .kill, .abandoned pid]
    | _ => []
  killed ++ (s.release a).trace

end Session

end PtyHost
