import PtyHost.Broker.Mode

/-!
# Who owns a slave

A granted slave belongs to the caller, and members of the terminal group may write to it. A
revoked one belongs to root and is open to everybody, so that it can be granted again.
-/

namespace PtyHost.Broker

/-- Owner, group and permissions of a device. -/
structure Ownership where
  uid : Nat
  gid : Nat
  mode : Nat
deriving DecidableEq, Repr

namespace Ownership

/-- The user who may do everything. -/
def rootUid : Nat := 0

/-- Permissions of a granted slave. -/
def grantedMode : Nat := 0o620

/-- Permissions of a revoked slave. -/
def revokedMode : Nat := 0o666

/-- A slave that nobody is attributed. -/
def neutral (ttyGid : Nat) : Ownership := ⟨rootUid, ttyGid, revokedMode⟩

/-- What a mode leaves behind for a caller and the terminal group. -/
def forMode (mode : Mode) (callerUid ttyGid : Nat) : Ownership :=
  match mode with
  | .grant => ⟨callerUid, ttyGid, grantedMode⟩
  | .revoke => neutral ttyGid

end Ownership

end PtyHost.Broker
