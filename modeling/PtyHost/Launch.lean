import PtyHost.Environment
import PtyHost.FileSystem

/-!
# Starting programs

What to run in a session, the environment that it gets, and the file that is executed for it.
-/

namespace PtyHost

/-- A program to be started, with its arguments, the terminal type that it is told, the variables
added to its environment, and the directory that it starts in. -/
structure Launch where
  program : String
  args : List String := []
  term : String := ""
  env : List (String × String) := []
  workingDir : Option Path := none
deriving DecidableEq, Repr

namespace Launch

/-- The variable that names the type of the terminal. -/
def termVariable : Bytes := Bytes.ofAscii "TERM"

/-- The variable that lists where programs are. -/
def pathVariable : Bytes := Bytes.ofAscii "PATH"

/-- Where programs are looked for if no list says so. -/
def defaultSearch : Bytes := Bytes.ofAscii "/bin:/usr/bin"

/-- The failure on a text that holds the byte 0, which ends texts for the operating system. -/
def zeroByte : OsError := .custom "nul byte found in provided data"

/-- The environment of the program. A terminal type that is empty is not told at all. -/
def environment (l : Launch) (inherited : Environment) : Environment :=
  let own := l.env.foldl
    (fun e (name, value) ↦ e.set (Utf8.encode name) (Utf8.encode value)) inherited
  if l.term = "" then own.unset termVariable else own.set termVariable (Utf8.encode l.term)

/-- All texts that are handed to the operating system. -/
def texts (l : Launch) : List Bytes :=
  (l.program :: l.args).map Utf8.encode ++
    ((l.environment {}).entries.flatMap fun (name, value) ↦ [name, value]) ++
    (l.workingDir.map (·.bytes)).toList

/-- Whether some text holds the byte 0. -/
def hasZeroByte (l : Launch) : Bool := l.texts.any fun t ↦ t.contains 0

/-- The place of the file that a path leads to, if it can be executed. -/
def executable (fs : FileSystem) (cwd : Place) (p : Path) : Except OsError Place := do
  let place ← fs.locate cwd p
  match fs.kind? place with
  | some (.file _ true) => .ok place
  | _ => .error .accessDenied

/-- Whether a name may still be found in another directory after an error in one. -/
def goesOn (e : OsError) : Bool := e = .accessDenied || e = .notFound || e = .notADirectory

/-- The first executable file of a name in a list of directories. One that is there and cannot be
executed is remembered as the reason when there is no other. -/
def search (fs : FileSystem) (cwd : Place) (name : Bytes) (reason : OsError) :
    List Bytes → Except OsError Place
  | [] => .error reason
  | dir :: rest =>
    let path : Path := if dir = [] then ⟨name⟩ else ⟨dir ++ Path.slash :: name⟩
    match executable fs cwd path with
    | .ok place => .ok place
    | .error e =>
      if goesOn e then
        search fs cwd name (if reason = .accessDenied then reason else e) rest
      else .error e

/-- The place of the file that is executed for a name: where it leads, if it is a path, or where
the search list has it. -/
def locate (fs : FileSystem) (cwd : Place) (env : Environment) (name : Bytes) :
    Except OsError Place :=
  if name = [] then .error .notFound
  else if name.contains Path.slash then executable fs cwd ⟨name⟩
  else if FileSystem.maxName < name.length then .error .nameTooLong
  else
    search fs cwd name .notFound
      (Bytes.fields 0x3A ((env.get? pathVariable).getD defaultSearch))

/-- The directory that the program starts in. -/
def directory (fs : FileSystem) (cwd : Place) (l : Launch) : Except OsError Place :=
  match l.workingDir with
  | none => .ok cwd
  | some dir => do
    let place ← fs.locate cwd dir
    if fs.isDirectory place then .ok place else .error .notADirectory

/-- The file that is executed and the directory that it starts in. -/
def resolve (fs : FileSystem) (cwd : Place) (inherited : Environment) (l : Launch) :
    Except OsError (Place × Place) := do
  if l.hasZeroByte then .error zeroByte
  let dir ← l.directory fs cwd
  let file ← locate fs dir (l.environment inherited) (Utf8.encode l.program)
  return (file, dir)

end Launch

end PtyHost
