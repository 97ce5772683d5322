import PtyHost.Broker.Error
import PtyHost.Broker.Ownership
import PtyHost.OsError

/-!
# The transfer of a slave

Granting and revoking are one operation on a system: check the privilege, find the slave behind
the inherited master, make sure that it is a character device, and change its owner and then its
permissions. If the second change fails, the first one is undone.

The system is any state with answers to these questions, so nothing here depends on the host. The
calls that read or change a node are recorded in the order in which they are made.
-/

namespace PtyHost.Broker

/-- What the helper needs to know of a system, and what it can do to it. A call that fails says
why, and may leave another state behind all the same. -/
structure System (σ : Type) where
  effectiveUid : σ → Nat
  realUid : σ → Nat
  ttyGid : σ → Nat
  slave : σ → Except Error Path
  isCharacterDevice : σ → Path → Bool
  owner : σ → Path → Except OsError (Nat × Nat)
  chown : σ → Path → Nat → Nat → Option OsError × σ
  chmod : σ → Path → Nat → Option OsError × σ

/-- A call on a node. -/
inductive Call
  | owner (path : Path)
  | chown (path : Path) (uid gid : Nat)
  | chmod (path : Path) (mode : Nat)
deriving DecidableEq, Repr

/-- What an attempt to grant or revoke leaves behind: its result, the system, and the calls that
were made, each with the error that it met. -/
structure Attempt (σ : Type) where
  result : Except Error Path
  system : σ
  calls : List (Call × Option OsError)

namespace System

variable {σ : Type}

/-- The failure of a call on the permissions of `path`. -/
def failed (path : Path) (call : String) (e : OsError) : Except Error Path :=
  .error (.permissionChangeFailed path (call ++ ": " ++ e.message))

/-- Gives `path` to its new owner, whose permissions it takes after that; without these it goes
back to the prior owner. -/
def transfer (sys : System σ) (path : Path) (target : Ownership) (prior : Nat × Nat) (s : σ) :
    Attempt σ :=
  let chown := Call.chown path target.uid target.gid
  let (chownError, owned) := sys.chown s path target.uid target.gid
  match chownError with
  | some e => ⟨failed path "chown" e, owned, [(chown, some e)]⟩
  | none =>
    let chmod := Call.chmod path target.mode
    let (chmodError, changed) := sys.chmod owned path target.mode
    match chmodError with
    | none => ⟨.ok path, changed, [(chown, none), (chmod, none)]⟩
    | some e =>
      let (undoError, undone) := sys.chown changed path prior.1 prior.2
      ⟨failed path "chmod" e, undone,
        [(chown, none), (chmod, some e), (.chown path prior.1 prior.2, undoError)]⟩

/-- Grants or revokes the slave behind the inherited master. -/
def execute (sys : System σ) (mode : Mode) (s : σ) : Attempt σ :=
  if sys.effectiveUid s ≠ Ownership.rootUid then ⟨.error .notPrivileged, s, []⟩
  else
    match sys.slave s with
    | .error e => ⟨.error e, s, []⟩
    | .ok path =>
      if !sys.isCharacterDevice s path then ⟨.error (.notACharacterDevice path), s, []⟩
      else
        match sys.owner s path with
        | .error e => ⟨failed path "stat" e, s, [(.owner path, some e)]⟩
        | .ok prior =>
          let target := Ownership.forMode mode (sys.realUid s) (sys.ttyGid s)
          let attempt := sys.transfer path target prior s
          { attempt with calls := (.owner path, none) :: attempt.calls }

end System

end PtyHost.Broker
