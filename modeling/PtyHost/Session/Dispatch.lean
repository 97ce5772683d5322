import PtyHost.Session.Operations

/-!
# Driving a session

Operations that wait: for output, for room to write input, for the silence countdown, and for the
program to end. An operation begins, and then goes on each time that what it waits for happens.
Between two of these moments it may be given up, which leaves the session as it is; so whatever
comes next, the same operation or another, finds a session that it can go on with.

When the program has ended, the rest of its output is collected for a while, the terminal is given
back, and only then the owner is told that the session has finished.
-/

namespace PtyHost.Session

variable {ε : Type}

/-- The most bytes that are read at a time. -/
def readBlock : Nat := 4096

/-- How long the rest of the output is collected after the program has ended. -/
def drainTimeout : Nat := 250

/-- What an operation waits for: one thing to happen, the session to finish, or the program to
end, perhaps only until a point in time, at which it is killed. -/
inductive Goal
  | step
  | finished
  | exit (grace : Option Nat)
deriving DecidableEq, Repr

/-- An operation that waits, either for what happens next, or, after the program has ended, for
the rest of its output, until a deadline. -/
inductive Wait
  | dispatching (goal : Goal)
  | draining (status : ExitStatus) (deadline : Nat)
deriving DecidableEq, Repr

/-- Something that an operation was waiting for: a block of output, the end of all output or a
failure to read it; bytes of the oldest input accepted by the terminal, the end of its other side
or a failure to write; the end of the silence countdown; the end of the program, or a failure to
learn of it; or the end of the time to wait. -/
inductive Wake
  | output (block : Bytes)
  | endOfOutput
  | readFailed (e : OsError)
  | accepted (count : Nat)
  | inputClosed
  | writeFailed (e : OsError)
  | silence
  | exited (status : ExitStatus)
  | waitFailed (e : OsError)
  | graceOver
  | drainOver
deriving DecidableEq, Repr

/-- Whether an operation goes on waiting or has ended, with the number of bytes of output that it
handed to the emulation last. -/
inductive Progress
  | waiting (w : Wait)
  | ended (v : Verdict Nat)
deriving DecidableEq, Repr

/-- A session, what was done to get there, and how far the operation has come. -/
structure Advance (ε : Type) extends Traced ε where
  progress : Progress
deriving DecidableEq, Repr

/-- Leaves an operation where it has come to. -/
def reaching (t : Traced ε) (p : Progress) : Advance ε := { t with progress := p }

/-- Ends an operation with a failure and without having done anything. -/
def refused (s : Session ε) (e : SessionError) : Advance ε :=
  reaching ⟨s, []⟩ (.ended (.failed e))

/-- Why there is nothing that can happen to a session. -/
def stillness (s : Session ε) : SessionError :=
  if s.isTerminated then .alreadyTerminated else .notRunning

/-- Begins a dispatch step. -/
def await (s : Session ε) (g : Goal) : Progress :=
  match s.current? with
  | some _ => .waiting (.dispatching g)
  | none => .ended (.failed s.stillness)

/-- Begins one dispatch step, and nothing else. -/
def process (s : Session ε) : Advance ε := reaching ⟨s, []⟩ (s.await .step)

/-- Begins to drive the session until it has finished. -/
def runUntilFinished (s : Session ε) : Advance ε :=
  reaching ⟨s, []⟩ (if s.isRunning then s.await .finished else .ended (.done 0))

/-- Begins to end the program: sends a signal and waits for the end. -/
def stop (s : Session ε) (sig : Signal) (grace : Option Nat) (a : Answers) : Advance ε :=
  match s.phase.state with
  | .idle => s.refused .notRunning
  | .terminated => reaching ⟨s, []⟩ (.ended (.done 0))
  | .running => reaching (s.signal sig a).toTraced (s.await (.exit grace))

/-- Begins to ask the program to end. It is killed if it has not ended after the grace period. -/
def terminate (s : Session ε) (a : Answers) : Advance ε :=
  s.stop s.options.terminateSignal (some (a.now + s.options.gracePeriod)) a

/-- Begins to kill the program. -/
def kill (s : Session ε) (a : Answers) : Advance ε := s.stop .kill none a

/-- Whether something can happen to a running program that an operation waits for. Output is not
read while it is locked, except after the program has ended; input is written in order; a program
that was reaped has ended with the status that it was reaped with. -/
def enables (r : Running) (w : Wait) (wake : Wake) (now : Nat) : Bool :=
  match w, wake with
  | .dispatching _, .output block =>
    r.readOpen && !r.locked && block ≠ [] && block.length ≤ readBlock
  | .dispatching _, .endOfOutput | .dispatching _, .readFailed _ => r.readOpen && !r.locked
  | .dispatching _, .accepted count => r.pending.head?.any fun front ↦ count ≤ front.length
  | .dispatching _, .inputClosed | .dispatching _, .writeFailed _ => r.pending ≠ []
  | .dispatching _, .silence => r.silenceAt.any (· ≤ now)
  | .dispatching _, .exited status => r.child.reaped.all (· = status)
  | .dispatching _, .waitFailed _ => r.child.reaped.isNone
  | .dispatching (.exit (some grace)), .graceOver => grace ≤ now
  | .draining .., .output block => r.readOpen && block ≠ [] && block.length ≤ readBlock
  | .draining .., .endOfOutput | .draining .., .readFailed _ => r.readOpen
  | .draining _ deadline, .drainOver => deadline ≤ now
  | _, _ => false

/-- The input that is left when some bytes of the oldest have been written. -/
def remaining (count : Nat) : List Bytes → List Bytes
  | [] => []
  | front :: rest => if front.length ≤ count then rest else front.drop count :: rest

/-- Where an operation stands after one dispatch step. -/
def Goal.after (g : Goal) (v : Verdict Nat) : Progress :=
  match g, v with
  | .finished, .done _ | .exit _, .done _ => .waiting (.dispatching g)
  | _, v => .ended v

/-- Gives the terminal back and tells the owner that the session has finished. -/
def complete (s : Session ε) (status : ExitStatus) (a : Answers) : Traced ε :=
  (s.release a).andThen fun s ↦
    let ended := { s with phase.state := .terminated, phase.exitStatus? := some status }
    let titled : Traced ε :=
      if s.options.autoClose then ⟨ended, []⟩
      else
        { ended with titles := { s.titles with userTitle := Titles.finished } }.notify
          (.titleChanged s.id)
    titled.andThen fun s ↦ s.notify (.finished s.id status)

/-- What follows when the program is known to have ended: the rest of its output is collected,
unless there can be none. -/
def reap (s : Session ε) (r : Running) (status : ExitStatus) (a : Answers) : Advance ε :=
  let child := r.child.learn (some status)
  let status := child.reaped.getD status
  let s := s.setRunning { r with child }
  if r.readOpen then reaching ⟨s, []⟩ (.waiting (.draining status (a.now + drainTimeout)))
  else reaching (s.complete status a) (.ended (.done 0))

/-- One dispatch step of an operation. -/
def dispatch [Emulation ε] (s : Session ε) (r : Running) (g : Goal) (wake : Wake) (a : Answers) :
    Advance ε :=
  match wake with
  | .output block =>
    let o := s.noteOutput block a.now
    reaching o.toTraced (g.after o.verdict)
  | .endOfOutput =>
    reaching ⟨s.setRunning { r with readOpen := false }, []⟩ (g.after (.done 0))
  | .accepted count =>
    reaching
      ⟨s.setRunning { r with pending := remaining count r.pending },
        [.wrote ((r.pending.headD []).take count)]⟩
      (g.after (.done 0))
  | .inputClosed =>
    reaching ⟨s.setRunning { r with pending := [] }, []⟩ (g.after (.done 0))
  | .readFailed e | .writeFailed e | .waitFailed e => s.refused (.device e)
  | .silence => reaching s.silenceElapsed (g.after (.done 0))
  | .exited status => s.reap r status a
  | .graceOver =>
    reaching (s.signal .kill a).toTraced (.waiting (.dispatching (.exit none)))
  | .drainOver => reaching ⟨s, []⟩ (.waiting (.dispatching g))

/-- One step of collecting the rest of the output. -/
def drain [Emulation ε] (s : Session ε) (r : Running) (status : ExitStatus) (deadline : Nat)
    (wake : Wake) (a : Answers) : Advance ε :=
  match wake with
  | .output block => reaching (s.feed block) (.waiting (.draining status deadline))
  | .endOfOutput | .readFailed _ =>
    reaching ((s.setRunning { r with readOpen := false }).complete status a) (.ended (.done 0))
  | .drainOver => reaching (s.complete status a) (.ended (.done 0))
  | _ => reaching ⟨s, []⟩ (.waiting (.draining status deadline))

/-- Goes on with an operation when something has happened. What cannot happen changes nothing. -/
def resume [Emulation ε] (s : Session ε) (w : Wait) (wake : Wake) (a : Answers) : Advance ε :=
  match s.current? with
  | none => s.refused s.stillness
  | some r =>
    if enables r w wake a.now then
      match w with
      | .dispatching g => s.dispatch r g wake a
      | .draining status deadline => s.drain r status deadline wake a
    else reaching ⟨s, []⟩ (.waiting w)

end PtyHost.Session
