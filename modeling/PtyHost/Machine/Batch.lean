import PtyHost.Machine.Script

/-!
# Texts for a shell

The shell of a machine reads texts that consist of a few commands: to ignore a signal, to react to
it as usual or to go on when it arrives, to leave a program behind that waits for ever or to wait
for it, to set and to tell the window size, to let go of the terminal and to write a word on it all
the same, and to exit with a code. It takes the same steps as a program that plays a script, and it
does not wait for what it leaves behind.
-/

namespace PtyHost.Machine

/-- A command in a text for a shell: choose how to react to a signal, leave a program behind or wait
for it, set the window size or tell it, let go of the terminal, write a word on the terminal, which
is opened for that, or exit with a code. -/
inductive Command
  | react (signal : Signal) (reaction : Reaction)
  | leave
  | wait
  | resize (size : WindowSize)
  | tellSize
  | letGo
  | echo (word : String)
  | exit (code : Int)
deriving DecidableEq, Repr

namespace Command

/-- The words of a command. -/
def words (cs : List Char) : List String :=
  ((cs.splitOn ' ').filter (· ≠ [])).map String.ofList

/-- Reads a number of rows or columns. -/
def dimension? (word : String) : Option UInt16 :=
  (Numeral.decimal? 65535 word.toList).map Nat.toUInt16

/-- The command that some words stand for, in the background or not. -/
def ofWords? (words : List String) (background : Bool) : Option Command :=
  match words, background with
  | ["trap", "''", name], false => (Signal.ofName? name).map (.react · .ignore)
  | ["trap", "-", name], false => (Signal.ofName? name).map (.react · .usual)
  | ["trap", ":", name], false => (Signal.ofName? name).map (.react · .goOn)
  | ["exit", code], false => (Step.count? code.toList).map fun n ↦ .exit n
  | ["sleep", "infinity"], true => some .leave
  | ["sleep", "infinity"], false => some .wait
  | ["stty", "rows", rows, "cols", cols], false => do
    return .resize ⟨← dimension? rows, ← dimension? cols⟩
  | ["stty", "size"], false => some .tellSize
  | ["exec", "</dev/null", ">/dev/null", "2>/dev/null"], false => some .letGo
  | ["echo", word, ">/dev/tty"], false => some (.echo word)
  | _, _ => none

/-- The commands in some characters, the first of which has already begun; `none` if the shell
cannot read them. A command ends at a semicolon, or at an ampersand if it is to run in the
background. -/
def scan? (begun : List Char) : List Char → Option (List Command)
  | [] => if words begun = [] then some [] else (ofWords? (words begun) false).map ([·])
  | c :: rest =>
    if c = ';' ∨ c = '&' then do
      let command ← ofWords? (words begun) (c = '&')
      return command :: (← scan? [] rest)
    else scan? (begun ++ [c]) rest

/-- The code that a shell exits with if it cannot make anything of its arguments. -/
def misuseCode : Int := 2

/-- The commands that a shell takes from its arguments. -/
def ofArguments (args : List String) : List Command :=
  match args with
  | ["-c", text] => (scan? [] text.toList).getD [.exit misuseCode]
  | _ => [.exit misuseCode]

/-- The step that the shell takes at a command. -/
def step : Command → Step
  | .react signal reaction => .react signal reaction
  | .leave => .skip
  | .wait => .hang
  | .resize size => .resize size
  | .tellSize => .tell .rowsAndColumns
  | .letGo => .close
  | .echo word => .writeAnew (Utf8.encode word ++ [0x0A])
  | .exit code => .exit code

/-- The signals that a program in the background is kept from. -/
def withheld : List (Signal × Reaction) := [(.int, .ignore), (.quit, .ignore)]

/-- What the programs that a shell leaves behind make of its choice: what it ignores they ignore
too, anything else is as usual for them. -/
def inherited : Reaction → Reaction
  | .ignore => .ignore
  | _ => .usual

/-- What a program gets from the shell that leaves it behind: its reactions to signals, and whether
the terminal is open. -/
structure Legacy where
  reactions : List (Signal × Reaction) := []
  onTerminal : Bool := true
deriving DecidableEq, Repr

/-- What the programs get that a shell leaves behind, after what it has chosen before. -/
def left (l : Legacy) : List Command → List Legacy
  | [] => []
  | .react signal reaction :: rest =>
    left { l with reactions := (signal, inherited reaction) :: l.reactions } rest
  | .leave :: rest => { l with reactions := withheld ++ l.reactions } :: left l rest
  | .letGo :: rest => left { l with onTerminal := false } rest
  | .resize _ :: rest | .tellSize :: rest | .echo _ :: rest => left l rest
  | .wait :: _ | .exit _ :: _ => []

end Command

end PtyHost.Machine
