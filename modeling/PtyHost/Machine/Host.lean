import PtyHost.Broker.Client
import PtyHost.Launch
import PtyHost.Machine.Batch
import PtyHost.Machine.Process
import PtyHost.Session.Effect

/-!
# Machines

A machine has files, some of which are programs, and a directory and an environment that every
program is started from. Starting a program either fails or gives a process, which still has to be
put on a terminal.
-/

namespace PtyHost.Machine

/-- What a permission helper does: it prints a diagnostic and ends. -/
structure Helper where
  diagnostic : Bytes := []
  status : ExitStatus := .exited 0
deriving DecidableEq, Repr

/-- What a file does when it is executed: play the script in its arguments, exit with a code, serve
as a permission helper, or read commands as a shell. -/
inductive Program
  | script
  | exits (code : Int)
  | helper (h : Helper)
  | shell
deriving DecidableEq, Repr

/-- A machine: its files, the directory and the environment that programs are started from, and
what its programs do. -/
structure Host where
  files : FileSystem := {}
  directory : Place := []
  environment : Environment := {}
  programs : List (Place × Program) := []
deriving Repr

/-- A process that is not on a terminal yet, whether it will make its terminal raw, and the
programs that it will leave behind. -/
structure Start where
  process : Process
  raw : Bool
  left : List Process := []
deriving DecidableEq, Repr

/-- Puts a process on a terminal and lets it run. It finds the line as it is. -/
def Start.on (s : Start) (t : Terminal) : Process × Terminal :=
  let surroundings := { s.process.surroundings with line := t.line }
  Process.run { s.process with surroundings } (if s.raw then t.makeRaw else t)

namespace Host

/-- Puts a program at a place, in the stead of what is there. It may lack the permission to be
executed. -/
def install (h : Host) (place : Place) (program : Program) (executable : Bool := true) : Host :=
  { h with
    files := (h.files.erase place).add place (.file [] executable)
    programs := (place, program) :: h.programs }

/-- Starts a program. -/
def start (h : Host) (l : Launch) : Except OsError Start := do
  let (file, directory) ← l.resolve h.files h.directory h.environment
  let surroundings : Surroundings :=
    { environment := l.environment h.environment, directory, arguments := l.args.length }
  match h.programs.lookup file with
  | some .script =>
    return { process := { steps := l.args.map Step.ofArgument, surroundings }, raw := true }
  | some (.exits code) =>
    return { process := { steps := [.exit code], surroundings }, raw := false }
  | some (.helper g) =>
    let ending :=
      match g.status with
      | .exited code => Step.exit code
      | .signaled signal _ => .die signal
    return { process := { steps := [.write g.diagnostic, ending], surroundings }, raw := false }
  | some .shell =>
    let commands := Command.ofArguments l.args
    return {
      process := { steps := commands.map Command.step, surroundings }
      raw := false
      left := (Command.left {} commands).map fun l ↦
        { steps := [.hang], surroundings, reactions := l.reactions, onTerminal := l.onTerminal } }
  | none => throw .badProgram

/-- Runs the permission helper. -/
def runHelper (h : Host) (program : Path) : Broker.HelperRun :=
  if program.bytes.contains 0 then .notStarted Launch.zeroByte
  else
    match Launch.locate h.files h.directory h.environment program.bytes with
    | .error e => .notStarted e
    | .ok place =>
      match h.programs.lookup place with
      | some (.helper g) => .ended g.status g.diagnostic
      | some (.exits code) => .ended (.exited code) []
      | some .script => .ended (.exited 0) []
      | some .shell => .ended (.exited Command.misuseCode) []
      | none => .notStarted .badProgram

end Host

/-- Who decides about permissions: the client of a configuration, or one that refuses as told. -/
inductive Authority
  | client (c : Broker.Client)
  | refusing (grant revoke : Option Broker.Error)
deriving DecidableEq, Repr

namespace Authority

/-- The answer to a request. -/
def answer (a : Authority) (h : Host) (mode : Broker.Mode) : Except SessionError Unit :=
  match a with
  | .client .nobody => .ok ()
  | .client (.helper program) => (h.runHelper program).answer program
  | .refusing grant revoke =>
    match (match mode with
      | .grant => grant
      | .revoke => revoke) with
    | none => .ok ()
    | some e => .error (.broker e)

/-- Whether somebody is there to learn of a request. -/
def hears (a : Authority) (h : Host) : Bool :=
  match a with
  | .client .nobody => false
  | .client (.helper program) =>
    match h.runHelper program with
    | .notStarted _ => false
    | .ended .. => true
  | .refusing .. => true

end Authority

end PtyHost.Machine
