import PtyHost.CommandLine.Arguments

/-!
# Declared command lines

A program that takes flags only need not read its arguments itself: it declares the flags, and
groups of them of which one has to be given, or no two may be. Flags are given in their long form
and once each. Nothing that is not declared is accepted, also behind `--`, where no argument is a
flag any more; and who asks for help or for the version gets no flags either.
-/

namespace PtyHost.CommandLine

/-- Flags that are looked at together. -/
structure FlagGroup where
  members : List String
  /-- Whether one of them has to be given. -/
  required : Bool
  /-- Whether several of them may be given. -/
  multiple : Bool
deriving DecidableEq, Repr

/-- The flags that a program takes, by their names. -/
structure Declaration where
  flags : List String
  groups : List FlagGroup
deriving DecidableEq, Repr

/-- Why arguments are refused. -/
inductive Refusal
  | help
  | version
  | unexpectedArgument (arg : Bytes)
  | unexpectedValue (flag : String)
  | repeatedFlag (flag : String)
  | missingFlag (group : FlagGroup)
  | conflictingFlags (group : FlagGroup)
deriving DecidableEq, Repr

/-- The argument that gives a flag. -/
def longForm (flag : String) : Bytes := separator ++ Bytes.ofAscii flag

/-- What stands between a flag and a value that is given with it. -/
def equals : UInt8 := 0x3D

namespace FlagGroup

/-- Whether one of the group is missing among the flags that are given. -/
def Missing (g : FlagGroup) (given : List String) : Prop :=
  g.required ∧ ∀ f ∈ g.members, f ∉ given

/-- Whether two of the group are given that exclude each other. -/
def Conflicting (g : FlagGroup) (given : List String) : Prop :=
  ¬ g.multiple ∧ ∃ f ∈ g.members, ∃ f' ∈ g.members, f ≠ f' ∧ f ∈ given ∧ f' ∈ given

instance (g : FlagGroup) (given : List String) : Decidable (g.Missing given) :=
  inferInstanceAs (Decidable (_ ∧ _))

instance (g : FlagGroup) (given : List String) : Decidable (g.Conflicting given) :=
  inferInstanceAs (Decidable (_ ∧ _))

end FlagGroup

namespace Declaration

/-- The flag that an argument gives, with or without a value. -/
def flag? (d : Declaration) (arg : Bytes) : Option String :=
  d.flags.find? (longForm · = arg.takeWhile (· ≠ equals))

/-- The flags that are given after one more argument. -/
def read (d : Declaration) (given : List String) (arg : Bytes) : Except Refusal (List String) :=
  if asksForHelp arg then .error .help
  else if asksForVersion arg then .error .version
  else
    match d.flag? arg with
    | none => .error (.unexpectedArgument arg)
    | some f =>
      if arg ≠ longForm f then .error (.unexpectedValue f)
      else if f ∈ given then .error (.repeatedFlag f)
      else .ok (given ++ [f])

/-- Ends the reading at `--`, behind which no argument may stand. -/
def close (given : List String) : List Bytes → Except Refusal (List String)
  | [] => .ok given
  | operand :: _ => .error (.unexpectedArgument operand)

/-- Reads the arguments behind the program's name, one after the other. -/
def scan (d : Declaration) (given : List String) : List Bytes → Except Refusal (List String)
  | [] => .ok given
  | arg :: rest =>
    if arg = separator then close given rest
    else
      match d.read given arg with
      | .error e => .error e
      | .ok given => scan d given rest

/-- What is wrong with the flags that are given, as far as groups of them are concerned. -/
def objection? (d : Declaration) (given : List String) : Option Refusal :=
  match d.groups.find? (·.Conflicting given) with
  | some g => some (.conflictingFlags g)
  | none => (d.groups.find? (·.Missing given)).map .missingFlag

/-- The flags that an argument vector, the program's name first, gives. -/
def parse (d : Declaration) (args : List Bytes) : Except Refusal (List String) :=
  match d.scan [] args.tail with
  | .error e => .error e
  | .ok given =>
    match d.objection? given with
    | some e => .error e
    | none => .ok given

end Declaration

end PtyHost.CommandLine
