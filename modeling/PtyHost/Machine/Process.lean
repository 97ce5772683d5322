import PtyHost.Environment
import PtyHost.ExitStatus
import PtyHost.FileSystem
import PtyHost.Machine.Script
import PtyHost.Machine.Terminal

/-!
# Processes of a machine

A process takes the steps of its script for as long as it can, reacts to signals, and ends. It is
the leader of its process group and of the session of its terminal.
-/

namespace PtyHost.Machine

/-- What a process finds when it starts: its environment, its directory, the number of its
arguments, and the line settings of its terminal. -/
structure Surroundings where
  environment : Environment := {}
  directory : Place := []
  arguments : Nat := 0
  line : Pty.LineState := {}
deriving DecidableEq, Repr

/-- A process: the steps left, what it found, how it reacts to signals, the newest choice first,
whether its terminal is open, whether it has been told of another window size, whether it is
stopped, the signals that have to wait for that, and how it ended, if it did. -/
structure Process where
  steps : List Step
  surroundings : Surroundings := {}
  reactions : List (Signal × Reaction) := []
  onTerminal : Bool := true
  resized : Bool := false
  stopped : Bool := false
  waiting : List Signal := []
  status : Option ExitStatus := none
deriving DecidableEq, Repr

namespace Surroundings

/-- The byte between the name and the value of a variable. -/
def equals : UInt8 := 0x3D

/-- The value of a variable, as the process finds it among the texts that it was given: each is a
name, an equals sign and a value, and the first that begins like this counts. -/
def value? (s : Surroundings) (name : Bytes) : Option Bytes :=
  let (plain, odd) := s.environment.entries.partition fun v ↦ !v.1.contains equals
  let texts := (plain ++ odd).map fun v ↦ v.1 ++ equals :: v.2
  if name = [] then none else texts.findSome? (name ++ [equals]).after?

/-- A number that is 1 for what is so. -/
def bit (b : Bool) : String := if b then "1" else "0"

/-- What a process tells of its surroundings, on a terminal with a window size. -/
def tell (s : Surroundings) (window : WindowSize) : Fact → Bytes
  | .variable name =>
    match s.value? name with
    | some value => name ++ equals :: value ++ Bytes.ofAscii ";"
    | none => name ++ Bytes.ofAscii " unset;"
  | .window => Bytes.ofAscii (window.display ++ ";")
  | .rowsAndColumns => Bytes.ofAscii s!"{window.rows} {window.cols}\n"
  | .line =>
    let l := s.line
    Bytes.ofAscii
      s!"ixon={bit l.ixon} ixoff={bit l.ixoff} iutf8={bit l.iutf8} erase={l.erase.toNat};"
  | .directory => Bytes.ofAscii "cwd=" ++ (FileSystem.pathTo s.directory).bytes ++ Bytes.ofAscii ";"
  | .terminal => Bytes.ofAscii "tty=111 leader=1 fg=1;"
  | .arguments => Bytes.ofAscii s!"argc={s.arguments + 1};"

end Surroundings

namespace Process

/-- Whether the process has not ended. -/
def isAlive (p : Process) : Bool := p.status.isNone

/-- Ends the process. -/
def ending (p : Process) (status : ExitStatus) : Process :=
  { p with status := some status, onTerminal := false, steps := [] }

/-- Ends the process with a code, of which 8 bits are kept. -/
def exiting (p : Process) (code : Int) : Process := p.ending (.exited (code % 256))

/-- Ends the process by a signal. Nothing is left behind for a debugger. -/
def dying (p : Process) (signal : Int) : Process := p.ending (.signaled signal false)

/-- The greatest number that a signal can have. -/
def lastSignal : Int := 64

/-- The signals that a process does not usually react to, with those that would stop one that has
another process to continue it. -/
def harmless : List Signal := [.chld, .cont, .urg, .winch, .tstp, .ttin, .ttou]

/-- Ends a wait without end, if that is what comes next. -/
def goingOn (p : Process) : Process :=
  match p.steps with
  | .hang :: rest => { p with steps := rest }
  | _ => p

/-- Reacts to a signal as chosen. -/
def react (p : Process) (s : Signal) : Process :=
  match (p.reactions.lookup s).getD .usual with
  | .ignore => p
  | .goOn => p.goingOn
  | .exit code => p.exiting code
  | .usual => if s ∈ harmless then p else p.dying s.number

/-- Receives a signal. A process that is stopped reacts when it is continued, except to being
killed; changes of the window size are only noted. -/
def deliver (p : Process) (s : Signal) : Process :=
  if !p.isAlive then p
  else if s = .kill then p.dying s.number
  else if s = .stop then { p with stopped := true }
  else if s = .winch then { p with resized := true }
  else if s = .cont then
    (p.waiting ++ [s]).foldl (fun p s ↦ if p.isAlive then p.react s else p)
      { p with stopped := false, waiting := [] }
  else if p.stopped then { p with waiting := p.waiting ++ [s] }
  else p.react s

/-- Takes a step, or does not, because it has to wait. -/
def perform (p : Process) (t : Terminal) : Step → Option (Process × Terminal)
  | .write data => some (p, if p.onTerminal then t.print data else t)
  | .read count back =>
    if !p.onTerminal then some (p, t)
    else if t.input.length < count then none
    else
      let rest := { t with input := t.input.drop count }
      some (p, if back then rest.print (t.input.take count) else rest)
  | .exit code => some (p.exiting code, t)
  | .die signal =>
    match Signal.ofNumber? signal with
    | some s =>
      some ({ p with reactions := (s, .usual) :: p.reactions }.deliver s, t)
    | none => some (if 0 < signal ∧ signal ≤ lastSignal then p.dying signal else p, t)
  | .hang => none
  | .react s reaction => some ({ p with reactions := (s, reaction) :: p.reactions }, t)
  | .awaitResize => if p.resized then some ({ p with resized := false }, t) else none
  | .resize size =>
    if !p.onTerminal ∨ t.window = size then some (p, t)
    else some (p.deliver .winch, { t with window := size })
  | .close => some ({ p with onTerminal := false }, t.closeSlave)
  | .writeAnew data =>
    let shown := t.openSlave.print data
    some (p, if p.onTerminal then shown else shown.closeSlave)
  | .tell fact => some (p, if p.onTerminal then t.print (p.surroundings.tell t.window fact) else t)
  | .skip => some (p, t)

/-- Whether the process can take a step at all. -/
def isActive (p : Process) : Bool := p.isAlive && !p.stopped

/-- Takes steps until one has to wait or the process cannot go on. After the last step the process
exits with the code 0. -/
def take (p : Process) (t : Terminal) : List Step → Process × Terminal
  | [] => (if p.isActive then p.exiting 0 else p, t)
  | step :: rest =>
    if p.isActive then
      match p.perform t step with
      | some (p, t) => take { p with steps := rest } t rest
      | none => (p, t)
    else (p, t)

/-- Lets the process go on. When it has ended, its terminal is closed. -/
def run (p : Process) (t : Terminal) : Process × Terminal :=
  let (p, t) := take p t p.steps
  (p, if p.isAlive then t else t.closeSlave)

end Process

end PtyHost.Machine
