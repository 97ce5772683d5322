import PtyHost.Path
import PtyHost.Text.Blank

/-!
# Failures of the permission helper

The helper tells its caller of a failure through its exit code and a line of text. Each kind of
failure has a code of its own, and the caller rebuilds the failure from both.
-/

namespace PtyHost.Broker

/-- Why the helper refused to grant or revoke. -/
inductive Error
  | invalidArguments (usage : String)
  | notPrivileged
  | deviceResolutionFailed (reason : String)
  | notACharacterDevice (path : Path)
  | permissionChangeFailed (path : Path) (reason : String)
deriving DecidableEq, Repr

namespace Error

/-- The wording of a failure. -/
def message : Error → String
  | .invalidArguments usage => "invalid arguments: " ++ usage
  | .notPrivileged => "not installed root-suid"
  | .deviceResolutionFailed reason => "cannot determine the name of device: " ++ reason
  | .notACharacterDevice path => "found `" ++ path.display ++ "' not to be a character device"
  | .permissionChangeFailed path reason =>
    "cannot change permissions of " ++ path.display ++ ": " ++ reason

/-- The exit code of a failure. -/
def exitCode : Error → Int
  | .invalidArguments _ => 1
  | .notPrivileged => 2
  | .deviceResolutionFailed _ => 3
  | .notACharacterDevice _ => 4
  | .permissionChangeFailed .. => 5

/-- The mark in front of a quoted path. -/
def openingQuote : Char := '\x60'

/-- The mark behind a quoted path. -/
def closingQuote : Char := '\x27'

/-- What stands between the first opening quote and the first closing quote after it. -/
def quoted? (cs : List Char) : Option (List Char) :=
  match cs.dropWhile (· ≠ openingQuote) with
  | [] => none
  | _ :: inner => if closingQuote ∈ inner then some (inner.takeWhile (· ≠ closingQuote)) else none

/-- The failure that an exit code and the text printed with it stand for, or `none` for success.
A code of no known kind leaves open what the helper tried, and counts as a failure to find the
device. -/
def ofExitCode? (code : Int) (diagnostic : String) : Option Error :=
  let text := Text.trimmed diagnostic
  if code = 0 then none
  else if code = 1 then some (.invalidArguments text)
  else if code = 2 then some .notPrivileged
  else if code = 4 then
    some (.notACharacterDevice (.ofText (String.ofList ((quoted? text.toList).getD text.toList))))
  else if code = 5 then some (.permissionChangeFailed ⟨[]⟩ text)
  else some (.deviceResolutionFailed s!"helper exited with status {code}: {text}")

/-- Whether two failures are the same, however their paths are spelled. -/
def same : Error → Error → Bool
  | .notACharacterDevice p, .notACharacterDevice q => p.Same q
  | .permissionChangeFailed p reason, .permissionChangeFailed q other =>
    p.Same q ∧ reason = other
  | e, f => e = f

/-- Only success has the code 0. -/
theorem ofExitCode?_eq_none_iff {code : Int} {diagnostic : String} :
    ofExitCode? code diagnostic = none ↔ code = 0 := by
  unfold ofExitCode?
  split
  · simp [*]
  · simp only [*, iff_false]
    repeat (split; simp)
    simp

end Error

end PtyHost.Broker
