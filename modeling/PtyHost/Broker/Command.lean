import PtyHost.Broker.Arguments
import PtyHost.Broker.Client
import PtyHost.Broker.Transfer

/-!
# The permission helper as a command

The helper reads its mode from the command line, works on the master that it inherits, prints one
line if it fails, and exits with the code of the failure.
-/

namespace PtyHost.Broker

open CommandLine (Declaration)

/-- How the helper is used. -/
def usage : String := "Usage: termhost_grantpty <--grant|--revoke>"

/-- The failure on a master that was not inherited. -/
def noMaster : Error := .deviceResolutionFailed s!"no descriptor inherited at slot {masterSlot}"

/-- Does what an argument vector, the program's name first, asks for. -/
def command {σ : Type} (sys : System σ) (args : List Bytes) (inherited : Bool) (s : σ) :
    Attempt σ :=
  match parseMode Declaration.parse (fun _ ↦ usage) args with
  | .error e => ⟨.error e, s, []⟩
  | .ok mode => if inherited then sys.execute mode s else ⟨.error noMaster, s, []⟩

/-- What the helper prints on its standard error. -/
def report (result : Except Error Path) : String :=
  match result with
  | .ok _ => ""
  | .error (.invalidArguments text) => text ++ "\n"
  | .error e => "ERROR " ++ e.message ++ "\n"

/-- The code that the helper exits with. -/
def commandCode (result : Except Error Path) : Int :=
  match result with
  | .ok _ => 0
  | .error e => e.exitCode

end PtyHost.Broker
