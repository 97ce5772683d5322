import PtyHost.Broker.Error
import PtyHost.Broker.Mode
import PtyHost.CommandLine.Declaration

/-!
# Arguments of the permission helper

The helper declares two flags, one for each mode, and that exactly one of them is to be given. How
a declared command line is read is left to a parser. Whatever the parser refuses, requests for
help and for the version included, is an invalid argument: the helper only ever does one of its
two jobs.
-/

namespace PtyHost.Broker

open CommandLine (Declaration FlagGroup)

/-- The flags of which exactly one is to be given. -/
def modeGroup : FlagGroup where
  members := ["grant", "revoke"]
  required := true
  multiple := false

/-- The command line of the helper. -/
def declaration : Declaration where
  flags := ["grant", "revoke"]
  groups := [modeGroup]

/-- The flags of the helper, given or not. -/
structure Flags where
  grant : Bool
  revoke : Bool
deriving DecidableEq, Repr

namespace Flags

/-- The flags, from the names of those that are given. -/
def ofGiven (given : List String) : Flags where
  grant := "grant" ∈ given
  revoke := "revoke" ∈ given

/-- The mode that the flags select. -/
def mode (flags : Flags) : Mode := if flags.grant then .grant else .revoke

end Flags

/-- The mode that an argument vector, the program's name first, selects. -/
def parseMode {ρ : Type} (parse : Declaration → List Bytes → Except ρ (List String))
    (render : ρ → String) (args : List Bytes) : Except Error Mode :=
  match parse declaration args with
  | .ok given => .ok (Flags.ofGiven given).mode
  | .error e => .error (.invalidArguments (render e))

end PtyHost.Broker
