import PtyHost.Session.Dispatch
import PtyHost.Session.Start

/-!
# The bridge between a session and the terminal of the user

While its program is running, a session is driven step by step. In between, input is forwarded to
it, changes of the user's window are followed, requests of the program for another window size are
granted, and requests to stop terminate it. Whatever comes first is done first; a step that was
waiting is then given up and begun again. Only the termination of the program is not interrupted.
-/

namespace PtyHost.CommandLine

/-- What the bridge waits for in its session: the next step, or the end of the program. -/
inductive Activity
  | stepping (w : Session.Wait)
  | stopping (w : Session.Wait)
deriving DecidableEq, Repr

/-- What is waited for in the session. -/
def Activity.wait : Activity → Session.Wait
  | .stepping w | .stopping w => w

/-- A bridge: its session, what it waits for in it, the notifications it has not seen to yet,
whether there may be more input, and whether the user has a terminal whose size counts. -/
structure Bridge (ε : Type) where
  session : Session ε
  activity : Activity := .stepping (.dispatching .step)
  notifications : List Notification := []
  inputOpen : Bool := true
  followsWindow : Bool := false
deriving DecidableEq, Repr

/-- What can happen to a bridge: something in its session, input or the end of it, another window
size of the user, if it is not empty, a request to stop, or the turn of a notification. -/
inductive Occurrence
  | woke (wake : Session.Wake)
  | input (data : Bytes)
  | inputEnded
  | windowChanged (size : Option WindowSize)
  | stopRequested
  | notified
deriving DecidableEq, Repr

/-- How a bridge stands: it goes on, its session has finished, or something failed. -/
inductive Standing (ε : Type)
  | crossing (b : Bridge ε)
  | ended (s : Session ε) (code : Nat)
  | failed (s : Session ε) (e : SessionError)
  | overflow (s : Session ε)
deriving DecidableEq, Repr

namespace Standing

variable {ε : Type}

/-- The session of the bridge. -/
def session : Standing ε → Session ε
  | .crossing b => b.session
  | .ended s _ | .failed s _ | .overflow s => s

/-- How a bridge stands in the beginning, after the attempt to run the program. -/
def begun (s : Session ε) (v : Verdict Unit) (followsWindow : Bool) : Standing ε :=
  match v with
  | .done () => .crossing { session := s, followsWindow }
  | .failed e => .failed s e
  | .overflow => .overflow s

end Standing

/-- The number that the program exits with for the end of a session. -/
def exitCode (status : Option ExitStatus) : Nat :=
  match status.map ExitStatus.code with
  | some (Int.ofNat n) => if n ≤ 255 then n else 1
  | _ => 1

/-- The notifications in a trace. -/
def notificationsIn (trace : List Effect) : List Notification :=
  trace.filterMap fun
    | .notified n => some n
    | _ => none

namespace Bridge

variable {ε : Type}

/-- Takes the next state of the session. -/
def take (b : Bridge ε) (t : Traced ε) : Bridge ε :=
  { b with session := t.session, notifications := b.notifications ++ notificationsIn t.trace }

/-- Begins the next step, unless the session has finished. -/
def settle (b : Bridge ε) : Standing ε :=
  if b.session.isRunning then .crossing { b with activity := .stepping (.dispatching .step) }
  else .ended b.session (exitCode b.session.exitStatus?)

/-- Goes on after something was done to the session, which may have failed. -/
def afterwards (b : Bridge ε) (o : Outcome ε Unit) : Standing ε × List Effect :=
  let b := b.take o.toTraced
  match o.verdict with
  | .done () => (b.settle, o.trace)
  | .failed e => (.failed b.session e, o.trace)
  | .overflow => (.overflow b.session, o.trace)

/-- Goes on after an operation of the session has come further. -/
def advance (b : Bridge ε) (again : Session.Wait → Activity) (step : Session.Advance ε) :
    Standing ε × List Effect :=
  let b := b.take step.toTraced
  match step.progress with
  | .waiting w => (.crossing { b with activity := again w }, step.trace)
  | .ended (.done _) => (b.settle, step.trace)
  | .ended (.failed e) => (.failed b.session e, step.trace)
  | .ended .overflow => (.overflow b.session, step.trace)

/-- Sees to a notification: a request for another window size is granted if it can be. -/
def attend [Emulation ε] (b : Bridge ε) (a : Answers) : Standing ε × List Effect :=
  match b.notifications with
  | [] => (b.settle, [])
  | .resizeRequested _ size :: rest =>
    let o := b.session.resize size a
    ((Bridge.take { b with notifications := rest } o.toTraced).settle, o.trace)
  | _ :: rest => ({ b with notifications := rest }.settle, [])

/-- Does what has to be done when something happens. -/
def step [Emulation ε] (b : Bridge ε) (o : Occurrence) (a : Answers) : Standing ε × List Effect :=
  match b.activity, o with
  | .stopping w, .woke wake => b.advance .stopping (b.session.resume w wake a)
  | .stopping _, _ => (.crossing b, [])
  | .stepping w, .woke wake => b.advance .stepping (b.session.resume w wake a)
  | .stepping _, .input data => b.afterwards (b.session.send data)
  | .stepping _, .inputEnded => ({ b with inputOpen := false }.settle, [])
  | .stepping _, .windowChanged none => (b.settle, [])
  | .stepping _, .windowChanged (some size) =>
    if b.followsWindow then b.afterwards (b.session.resize size a) else (b.settle, [])
  | .stepping _, .stopRequested => b.advance .stopping (b.session.terminate a)
  | .stepping _, .notified => b.attend a

end Bridge

end PtyHost.CommandLine
