import PtyHost.Clock
import PtyHost.Session.Basic

/-!
# Starting a program

A program is started in steps: open a master, have its slave granted, set the window size, open
the slave, set the line up, duplicate the master for reading and writing, and start the program.
The first step that fails ends the attempt, and the terminal is given back.
-/

namespace PtyHost.Session

variable {ε : Type}

/-- An attempt to start a program: the device and the grant so far, what was done, and what has come
of it, which is a failure, or nothing but success as long as steps are left, and the process after
the last. -/
structure Startup (α : Type) where
  device : Pty.Device
  granted : Bool
  trace : List Effect
  result : Except SessionError α
deriving Repr

namespace Startup

/-- Ends the attempt. -/
def fail (u : Startup Unit) (e : SessionError) : Startup Unit := { u with result := .error e }

/-- Notes something that was done. -/
def note (u : Startup Unit) (e : Effect) : Startup Unit := { u with trace := u.trace ++ [e] }

/-- Opens a master. -/
def openMaster (a : Answers) (u : Startup Unit) : Startup Unit :=
  match u.device.openMaster a.openMaster with
  | .ok device => { u with device }.note .openedMaster
  | .error e => u.fail e

/-- Has the slave granted. -/
def requestGrant (a : Answers) (u : Startup Unit) : Startup Unit :=
  match a.grant with
  | .ok () => { u with granted := true }.note (.requested .grant true)
  | .error e => (u.note (.requested .grant false)).fail e

/-- Sets the window size. -/
def setWindowSize (size : WindowSize) (a : Answers) (u : Startup Unit) : Startup Unit :=
  match u.device.request a.setWindowSize with
  | .ok () => u.note (.sizedWindow size)
  | .error e => u.fail e

/-- Opens the slave. -/
def openSlave (a : Answers) (u : Startup Unit) : Startup Unit :=
  match u.device.openSlave a.openSlave with
  | .ok device => { u with device }.note .openedSlave
  | .error e => u.fail e

/-- Sets the line up. -/
def configureLine (line : Pty.LineSettings) (a : Answers) (u : Startup Unit) : Startup Unit :=
  match a.configureLine with
  | .ok () => u.note (.configuredLine line)
  | .error e => u.fail (.device e)

/-- Duplicates the master. -/
def duplicate (a : Answers) (u : Startup Unit) : Startup Unit :=
  match u.device.request a.duplicate with
  | .ok () => u
  | .error e => u.fail e

/-- All steps before the last, in order. -/
def steps (size : WindowSize) (line : Pty.LineSettings) (a : Answers) :
    List (Startup Unit → Startup Unit) :=
  [openMaster a, requestGrant a, setWindowSize size a, openSlave a, configureLine line a,
    duplicate a]

/-- Takes steps until one fails. -/
def run (steps : List (Startup Unit → Startup Unit)) (u : Startup Unit) : Startup Unit :=
  steps.foldl
    (fun u step ↦
      match u.result with
      | .ok () => step u
      | .error _ => u)
    u

/-- Starts the program, which is the last step, unless one has failed. -/
def spawn (program : String) (a : Answers) (u : Startup Unit) : Startup Pid :=
  match u.result, a.spawn with
  | .error e, _ => ⟨u.device, u.granted, u.trace, .error e⟩
  | .ok (), .ok pid => ⟨u.device, u.granted, u.trace ++ [.spawned pid], .ok pid⟩
  | .ok (), .error e => ⟨u.device, u.granted, u.trace, .error (.execFailed program e)⟩

end Startup

/-- The attempt of an idle session to start a program. -/
def startup (s : Session ε) (program : String) (a : Answers) : Startup Pid :=
  (Startup.run (Startup.steps s.size s.options.line a) ⟨s.device, s.granted, [], .ok ()⟩).spawn
    program a

/-- The title of a session that runs a program and has no title of its own: the program's name
without the directories. -/
def titleFor (program : String) : String :=
  match (Path.ofText program).fileName? with
  | some name => Utf8.decodeLossy name
  | none => program

/-- The session with its program running. Other users are kept from writing messages to it, if
that can be done. -/
def started (s : Session ε) (program : String) (pid : Pid) (silenceAt : Option Nat) (a : Answers) :
    Traced ε where
  session := { s with
    phase.state := .running
    phase.running? := some { child := ⟨pid, none⟩, locked := s.outputLocked, silenceAt }
    program
    titles :=
      if s.titles.title = "" then { s.titles with title := titleFor program } else s.titles }
  trace := if s.device.isOpen ∧ a.setMessages.toBool then [.setMessages false] else []

/-- The end of the first silence countdown, if there is to be one; `none` if the clock cannot show
it. -/
def firstSilence? (o : SessionOptions) (now : Nat) : Option (Option Nat) :=
  if o.monitorSilence then (Clock.after? now o.silenceTimeout).map some else some none

/-- Starts a program on a fresh terminal. If it cannot be started the session stays idle and may
try again. A silence countdown that the clock cannot show leaves the terminal open and kills the
program. -/
def run (s : Session ε) (program : String) (a : Answers) : Outcome ε Unit :=
  match s.phase.state with
  | .running => { session := s, verdict := .failed .alreadyRunning }
  | .terminated => { session := s, verdict := .failed .alreadyTerminated }
  | .idle =>
    let u := s.startup program a
    let opened : Session ε := { s with device := u.device, granted := u.granted }
    match u.result with
    | .error e =>
      ((⟨opened, u.trace⟩ : Traced ε).andThen fun s ↦ s.release a).ending (.failed e)
    | .ok pid =>
      let fresh := { opened with notified := false }
      match firstSilence? s.options a.now with
      | none => { session := fresh, trace := u.trace ++ [.abandoned pid], verdict := .overflow }
      | some silenceAt =>
        ((⟨fresh, u.trace⟩ : Traced ε).andThen fun s ↦ s.started program pid silenceAt a).ending
          (.done ())

end PtyHost.Session
