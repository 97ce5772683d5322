import PtyHost.Machine.Console

/-!
# The program

The command line on a machine that is put together from what can be read of the real one: the
environment, the configuration files, the list of shells and the standard input. The only program
there is on that machine is one that plays the script in its arguments.
-/

namespace PtyHost.Machine

/-- The variables that are taken over from the environment. -/
def inheritedVariables : List String :=
  ["HOME", "SHELL", Config.shellVariable, Config.brokerVariable, Config.logVariable]

/-- The place of the program that plays scripts. -/
def playPlace : Place := (Path.ofAscii "/usr/bin/play").segments

/-- The directories of the machine. -/
def ownDirectories : List Place :=
  ["/usr", "/usr/bin", "/etc", "/work"].map fun dir ↦ (Path.ofAscii dir).segments

/-- The machine with variables, and with files given by their paths from its directory. -/
def assembled (inherited : List (Bytes × Bytes)) (files : List (Path × Bytes)) : Host :=
  let work : Place := (Path.ofAscii "/work").segments
  let tree := ownDirectories.foldl (fun fs dir ↦ fs.add dir .directory) ({} : FileSystem)
  let tree := files.foldl
    (fun fs (path, contents) ↦
      let dir := if path.isAbsolute then [] else work
      fs.add (dir ++ path.segments) (.file contents false))
    tree
  let search := (Bytes.ofAscii "PATH", Bytes.ofAscii "/usr/bin")
  ({ files := tree, directory := work, environment := ⟨search :: inherited⟩ } : Host).install
    playPlace .script

/-- The time at which the program begins, in milliseconds. -/
def startOfDay : Nat := 1000

/-- The configuration file that arguments name, or else the usual one. -/
def configFile (args : List Bytes) : Path :=
  match CommandLine.request? args with
  | some (.run a) => a.config.getD Config.defaultFile
  | _ => Config.defaultFile

/-- The number that stands for the end of the program. -/
def Exit.number : Exit → Nat
  | .code n => n
  | .signal s => (ExitStatus.signaled s.number false).code.toNat
  | .never => failureCode

/-- The contents of a file, if it can be read. -/
def contents? (path : Path) : IO (Option Bytes) := do
  try
    return some (← IO.FS.readBinFile path.display).toList
  catch _ =>
    return none

/-- Runs the program with the arguments behind its name. -/
def runMain (args : List String) : IO UInt32 := do
  let given := args.map Utf8.encode
  let inherited ← inheritedVariables.filterMapM fun name ↦ do
    return (← IO.getEnv name).map fun value ↦ (Utf8.encode name, Utf8.encode value)
  let files ← [configFile given, Shell.listFile].filterMapM fun path ↦ do
    return (← contents? path).map fun contents ↦ (path, contents)
  let input ← (← IO.getStdin).readToEnd
  let user : User := { acts := [⟨0, .type (Utf8.encode input)⟩] }
  let report := runCommand (assembled inherited files) startOfDay user given
  (← IO.getStdout).write ⟨report.output.toArray⟩
  for line in report.failures do
    IO.eprintln line
  return report.exit.number.toUInt32

end PtyHost.Machine

/-- Runs the program. -/
def main (args : List String) : IO UInt32 := PtyHost.Machine.runMain args
