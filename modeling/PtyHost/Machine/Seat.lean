import PtyHost.Machine.Host
import PtyHost.Session.Dispatch

/-!
# Where a session takes place

The terminal that a session has open, the process on it, and what the session has asked for and
told its owner. Everything that a session does changes its seat, and what can happen to the session
is read off its seat.
-/

namespace PtyHost.Machine

/-- The seat of a session: its terminal, while the master is open, the process on it, the programs
that this one leaves behind in its process group, and the requests and notifications since they were
last looked at, the oldest first. -/
structure Seat where
  terminal : Option Terminal := none
  process : Option Process := none
  left : List Process := []
  requests : List Broker.Mode := []
  notifications : List Notification := []
deriving DecidableEq, Repr

namespace Seat

/-- Whether a program is there that was left behind. -/
def isFollowed (s : Seat) : Bool := s.left.any (·.isAlive)

/-- Puts a process on the seat that has gone on on its terminal. The programs that it left behind
may have the terminal open too, and are told when it has ended. -/
def seated (s : Seat) (p : Process) (t : Terminal) : Seat :=
  let left := if p.isAlive then s.left else s.left.map (·.deliver .hup)
  let held := left.any fun q ↦ q.isAlive && q.onTerminal
  { s with process := some p, left, terminal := some (if held then t.openSlave else t) }

/-- Lets the process go on, on its terminal. -/
def settle (s : Seat) : Seat :=
  match s.terminal, s.process with
  | some t, some p =>
    let (p, t) := p.run t
    s.seated p t
  | _, _ => s

/-- Sends a signal to the process. -/
def signal (s : Seat) (sig : Signal) : Seat :=
  { s with process := s.process.map (·.deliver sig) }

/-- Sends a signal to the process group of the process. -/
def signalGroup (s : Seat) (sig : Signal) : Seat :=
  { s.signal sig with left := s.left.map (·.deliver sig) }

/-- Changes the terminal. -/
def onTerminal (s : Seat) (f : Terminal → Terminal) : Seat :=
  { s with terminal := s.terminal.map f }

/-- Gives the terminal another window size, and tells the process if it is another one. -/
def resize (s : Seat) (size : WindowSize) : Seat :=
  match s.terminal with
  | some t =>
    let resized := { s with terminal := some { t with window := size } }
    if t.window = size then resized else resized.signal .winch
  | none => s

/-- What becomes of the seat when the session does something. `starting` is the process that is
started if one is. -/
def perform (starting : Option Start) (s : Seat) : Effect → Seat
  | .notified n => { s with notifications := s.notifications ++ [n] }
  | .openedMaster => { s with terminal := some {} }
  | .closedMaster => { s.signal .hup with terminal := none }
  | .requested mode _ => { s with requests := s.requests ++ [mode] }
  | .sizedWindow size => s.resize size
  | .openedSlave => s.onTerminal Terminal.openSlave
  | .configuredLine settings => s.onTerminal fun t ↦ t.configure settings
  | .spawned _ =>
    match s.terminal, starting with
    | some t, some start =>
      let (p, t) := start.on t
      { s with left := start.left }.seated p t
    | _, _ => s
  | .setMessages allowed => s.onTerminal fun t ↦ t.setMessages allowed
  | .signalled _ sig => s.signalGroup sig
  | .wrote data => s.onTerminal fun t ↦ t.type data
  | .abandoned _ => s.signal .kill
  | .queued _ => s
  | .fed _ => s

/-- What becomes of the seat when the session does some things and the process then goes on. -/
def performAll (s : Seat) (trace : List Effect) (starting : Option Start := none) : Seat :=
  (trace.foldl (perform starting) s).settle

/-- What the terminal and the process have in store for the session. -/
def occasions (s : Seat) (r : Running) : List Session.Wake :=
  (match s.terminal with
    | some t =>
      let reading : List Session.Wake :=
        if t.output ≠ [] then [.output (t.read Session.readBlock).1]
        else if t.hungUp then [.endOfOutput] else []
      let writing : List Session.Wake :=
        match r.pending with
        | [] => []
        | front :: _ => [if t.hungUp then .inputClosed else .accepted front.length]
      reading ++ writing
    | none => []) ++
  (match s.process.bind (·.status) with
    | some status => [.exited status]
    | none => []) ++
  [.silence, .graceOver, .drainOver]

/-- The first thing in store that an operation waits for. -/
def next? (s : Seat) (r : Running) (w : Session.Wait) (now : Nat) : Option Session.Wake :=
  (s.occasions r).find? fun wake ↦ Session.enables r w wake now

/-- Takes from the terminal what the session was handed. -/
def taken (s : Seat) : Session.Wake → Seat
  | .output block => s.onTerminal fun t ↦ (t.read block.length).2
  | _ => s

/-- The points in time that an operation waits for. -/
def deadlines (r : Running) : Session.Wait → List Nat
  | .dispatching (.exit (some grace)) => grace :: r.silenceAt.toList
  | .dispatching _ => r.silenceAt.toList
  | .draining _ deadline => [deadline]

/-- Hands out the requests and notifications since the last time. -/
def takeNews (s : Seat) : List Broker.Mode × List Notification × Seat :=
  (s.requests, s.notifications, { s with requests := [], notifications := [] })

end Seat

end PtyHost.Machine
