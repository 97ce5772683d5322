import PtyHost.CommandLine.Arguments
import PtyHost.Config.Load
import PtyHost.Registry
import PtyHost.Shell
import PtyHost.Toml.Document

/-!
# From arguments to a session

What the program runs, and with which settings: those of the configuration, the size of the user's
window, and the arguments, of which the later ones count.
-/

namespace PtyHost.CommandLine

/-- Why the program ends without having run anything to its end. -/
inductive Failure
  | config (e : ConfigError)
  | session (e : SessionError)
deriving DecidableEq, Repr

/-- The wording of a failure. -/
def Failure.message : Failure → String
  | .config e => e.message
  | .session e => e.message

/-- The line that tells the user of a failure. -/
def Failure.line (f : Failure) : String := "termhost: " ++ f.message

/-- The name and the version of the program. -/
def versionLine : String := "termhost 0.1.0"

/-- The size of the user's window, unless the window is empty. -/
def usableSize? (size : Option WindowSize) : Option WindowSize := size.filter fun s ↦ !s.isEmpty

/-- The configuration with another window size. -/
def withSize (c : Config) (size : WindowSize) : Config :=
  { c with session := { c.session with rows := size.rows, cols := size.cols } }

/-- The configuration with the size of the user's window, and with the size given by arguments. -/
def sized (c : Config) (window : Option WindowSize) (args : RunArguments) : Config :=
  let own := ((usableSize? window).map fun s ↦ withSize c s).getD c
  withSize own ⟨args.rows.getD own.session.rows, args.cols.getD own.session.cols⟩

/-- What is run: the program of the arguments, or else the configured shell, or else the default
one; and the terminal type it is told. -/
structure Plan where
  config : Config
  program : String
  args : List String
  term : String
deriving DecidableEq, Repr

/-- Plans what the arguments ask for. -/
def plan (fs : FileSystem) (cwd : Place) (environment : Environment) (window : Option WindowSize)
    (args : RunArguments) : Except ConfigError Plan := do
  let loaded ← Config.load Toml.read fs cwd environment args.config
  let config ← Config.validated (sized loaded window args)
  let term := args.term.getD config.session.term
  match args.command with
  | program :: rest => return { config, program, args := rest, term }
  | [] =>
    let shell := config.session.defaultShell.getD
      (Shell.default fs cwd (environment.get? (Bytes.ofAscii "SHELL")))
    return { config, program := shell, args := [], term }

end PtyHost.CommandLine
