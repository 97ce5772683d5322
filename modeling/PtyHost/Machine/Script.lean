import PtyHost.Signal
import PtyHost.Text.Numeral
import PtyHost.Text.Utf8
import PtyHost.WindowSize

/-!
# Scripts

The programs of a machine that play a script take its steps from their arguments, one step from
each, and exit with the code 0 after the last.
-/

namespace PtyHost.Machine

/-- What a program does when a signal arrives: what is usual, nothing, to go on with what comes
after a wait without end, or to exit with a code. -/
inductive Reaction
  | usual
  | ignore
  | goOn
  | exit (code : Int)
deriving DecidableEq, Repr

/-- What a program can tell of its surroundings: a variable, the window size, its rows and columns
on a line, the line settings that it found, its directory, its terminal, or the number of its
arguments. -/
inductive Fact
  | variable (name : Bytes)
  | window
  | rowsAndColumns
  | line
  | directory
  | terminal
  | arguments
deriving DecidableEq, Repr

/-- A step of a script: write, read a number of bytes, and perhaps write them back, exit, die of a
signal, wait for ever, choose how to react to a signal, wait for another window size, set one, close
the terminal, open it once more to write on it, tell something, or do nothing. -/
inductive Step
  | write (data : Bytes)
  | read (count : Nat) (back : Bool)
  | exit (code : Int)
  | die (signal : Int)
  | hang
  | react (signal : Signal) (reaction : Reaction)
  | awaitResize
  | resize (size : WindowSize)
  | close
  | writeAnew (data : Bytes)
  | tell (fact : Fact)
  | skip
deriving DecidableEq, Repr

namespace Step

/-- The bytes that pairs of hexadecimal digits stand for. -/
def hexBytes? : List Char → Option Bytes
  | [] => some []
  | [_] => none
  | c :: d :: rest => do
    let high ← Numeral.hexDigit? c
    let low ← Numeral.hexDigit? d
    let rest ← hexBytes? rest
    return (high * 16 + low).toUInt8 :: rest

/-- Reads a number that counts something. -/
def count? (cs : List Char) : Option Nat := Numeral.decimal? (Nat.pow 2 63 - 1) cs

/-- Reads a number that may be negative. -/
def number? : List Char → Option Int
  | '-' :: cs => (count? cs).map fun n ↦ -(n : Int)
  | cs => (count? cs).map fun n ↦ (n : Int)

/-- Reads the number of a signal. -/
def signal? (cs : List Char) : Option Signal := (number? cs).bind Signal.ofNumber?

/-- The text before the first colon, and the text behind it if there is a colon. -/
def cut (cs : List Char) : List Char × Option (List Char) :=
  match cs.dropWhile (· ≠ ':') with
  | [] => (cs, none)
  | _ :: rest => (cs.takeWhile (· ≠ ':'), some rest)

/-- The step that a word stands for, with what is behind its colon; `none` if it stands for none. -/
def ofWord? (word : String) (cs : List Char) : Option Step :=
  match word with
  | "out" => (hexBytes? cs).map .write
  | "rep" => do
    let (times, data) := cut cs
    let times ← count? times
    let data ← hexBytes? (← data)
    return .write (List.replicate times data).flatten
  | "read" => (count? cs).map fun n ↦ .read n false
  | "echo" => (count? cs).map fun n ↦ .read n true
  | "exit" => (number? cs).map .exit
  | "kill" => (number? cs).map .die
  | "ign" => (signal? cs).map fun s ↦ .react s .ignore
  | "trap" => do
    let (signal, code) := cut cs
    return .react (← signal? signal) (.exit (← number? (← code)))
  | "env" => some (.tell (.variable (Utf8.encode (String.ofList cs))))
  | _ => none

/-- The step that a word without a colon stands for. -/
def ofBareWord : String → Step
  | "hang" => .hang
  | "winch" => .awaitResize
  | "close" => .close
  | "size" => .tell .window
  | "line" => .tell .line
  | "cwd" => .tell .directory
  | "tty" => .tell .terminal
  | "argc" => .tell .arguments
  | _ => .skip

/-- The step that an argument stands for. -/
def ofArgument (arg : String) : Step :=
  match cut arg.toList with
  | (_, none) => ofBareWord arg
  | (word, some cs) => (ofWord? (String.ofList word) cs).getD .skip

end Step

end PtyHost.Machine
