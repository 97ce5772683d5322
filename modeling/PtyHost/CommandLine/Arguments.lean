import PtyHost.Path

/-!
# Command line arguments

The program has two commands: one runs a program in a session, with options in front of `--` and
the program behind it, and one lists the shells of the system.
-/

namespace PtyHost.CommandLine

/-- What a session is run with: the configuration file, the terminal type, the window size, as far
as they are given, and the program with its arguments. -/
structure RunArguments where
  config : Option Path := none
  term : Option String := none
  rows : Option UInt16 := none
  cols : Option UInt16 := none
  command : List String := []
deriving DecidableEq, Repr

/-- What is asked for. -/
inductive Request
  | run (args : RunArguments)
  | shells
  | version
  | help
deriving DecidableEq, Repr

/-- Reads a window dimension: a decimal number of 16 bits, which may have a sign. -/
def dimension? (value : Bytes) : Option UInt16 := do
  let cs := (← Utf8.decode? value).toList
  let (negative, digits) :=
    match cs with
    | '-' :: rest => (true, rest)
    | '+' :: rest => (false, rest)
    | _ => (false, cs)
  guard (digits ≠ [] ∧ digits.all Char.isDigit)
  let n := digits.foldl (fun n c ↦ n * 10 + (c.toNat - '0'.toNat)) 0
  guard (n ≤ 65535 ∧ (negative → n = 0))
  return n.toUInt16

/-- The options of the command that runs a session. -/
inductive RunOption
  | config
  | term
  | rows
  | cols
deriving DecidableEq, Repr

/-- The name of an option. -/
def RunOption.name : RunOption → String
  | .config => "--config"
  | .term => "--term"
  | .rows => "--rows"
  | .cols => "--cols"

/-- The option with a name. -/
def RunOption.ofName? (name : Bytes) : Option RunOption :=
  [.config, .term, .rows, .cols].find? fun o ↦ Bytes.ofAscii o.name = name

/-- Sets an option, which may be given once only. -/
def RunArguments.set? (args : RunArguments) (o : RunOption) (value : Bytes) : Option RunArguments :=
  match o with
  | .config =>
    if args.config.isNone ∧ value ≠ [] then some { args with config := some ⟨value⟩ } else none
  | .term => do
    guard args.term.isNone
    return { args with term := some (← Utf8.decode? value) }
  | .rows => do
    guard args.rows.isNone
    return { args with rows := some (← dimension? value) }
  | .cols => do
    guard args.cols.isNone
    return { args with cols := some (← dimension? value) }

/-- The byte that begins an option. -/
def hyphen : UInt8 := 0x2D

/-- Whether an argument cannot be the value of an option in front of it, because it looks like an
option itself. A hyphen alone is a value. -/
def looksLikeOption (arg : Bytes) : Bool := arg.head? = some hyphen && arg ≠ [hyphen]

/-- What separates options from the program. -/
def separator : Bytes := [hyphen, hyphen]

/-- Whether an argument is a flag in its long form, or several in their short form that begin with
it. What follows it is not looked at. -/
def isFlag (long : String) (short : Char) (arg : Bytes) : Bool :=
  arg = Bytes.ofAscii long || [hyphen, short.toUInt8].isPrefixOf arg

/-- Whether an argument asks for help. -/
def asksForHelp (arg : Bytes) : Bool := isFlag "--help" 'h' arg

/-- Whether an argument asks for the version. -/
def asksForVersion (arg : Bytes) : Bool := isFlag "--version" 'V' arg

/-- The commands. -/
inductive Command
  | run
  | shells
  | help
deriving DecidableEq, Repr

/-- The name of a command. -/
def Command.name : Command → String
  | .run => "run"
  | .shells => "shells"
  | .help => "help"

/-- The command with a name. -/
def Command.ofName? (name : Bytes) : Option Command :=
  [.run, .shells, .help].find? fun c ↦ Bytes.ofAscii c.name = name

/-- Reads the arguments of the command that runs a session; `none` if they cannot be used. -/
def runRequest? (args : RunArguments) : List Bytes → Option Request
  | [] => some (.run args)
  | arg :: rest =>
    if arg = separator then do
      return .run { args with command := ← rest.mapM Utf8.decode? }
    else if asksForHelp arg then some .help
    else
      let name := arg.takeWhile (· ≠ 0x3D)
      match RunOption.ofName? name, arg.drop name.length, rest with
      | some o, _ :: value, rest => do runRequest? (← args.set? o value) rest
      | some o, [], value :: rest =>
        if looksLikeOption value then none else do runRequest? (← args.set? o value) rest
      | some _, [], [] => none
      | none, _, _ => none

/-- Reads the arguments of the command that lists the shells. -/
def shellsRequest? : List Bytes → Option Request
  | [] => some .shells
  | [arg] =>
    if asksForHelp arg then some .help else if arg = separator then some .shells else none
  | arg :: _ => if asksForHelp arg then some .help else none

/-- Reads the arguments of the command that explains the commands: one of them, or none. -/
def helpRequest? : List Bytes → Option Request
  | [] => some .help
  | [name] => (Command.ofName? name).map fun _ ↦ .help
  | _ => none

/-- What the arguments behind the program's name ask for; `none` if they cannot be used. -/
def request? : List Bytes → Option Request
  | [] => none
  | arg :: rest =>
    if asksForHelp arg then some .help
    else if asksForVersion arg then some .version
    else
      match Command.ofName? arg with
      | some .run => runRequest? {} rest
      | some .shells => shellsRequest? rest
      | some .help => helpRequest? rest
      | none => none

end PtyHost.CommandLine
