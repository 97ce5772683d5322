import PtyHost.Broker.Transfer

/-!
# What the helper touches

The helper runs with all privileges, so it may change nothing that it has not checked. An attempt
to grant or revoke changes the slave behind the inherited master and nothing else, and only once it
has made sure of its privilege, of the slave and of its prior owner. What it changes, and back into
what, does not depend on the caller any further than that a granted slave is the caller's.

Main statements: `System.conduct` on the calls that an attempt can make, one after the other, and
`changes_checked` on what they keep to, whatever the system answers.
-/

namespace PtyHost.Broker

/-- The path that a call is on. -/
def Call.path : Call → Path
  | .owner path | .chown path _ _ | .chmod path _ => path

/-- Whether a call changes the owner of a node. -/
def Call.isChown : Call → Bool
  | .chown .. => true
  | _ => false

/-- Whether a call changes the permissions of a node. -/
def Call.isChmod : Call → Bool
  | .chmod .. => true
  | _ => false

/-- Whether a call changes a node. -/
def Call.isChange (c : Call) : Bool := c.isChown || c.isChmod

/-- The calls of an attempt, each with the error that it met, the oldest first. -/
abbrev Calls := List (Call × Option OsError)

/-- The changes of owner among some calls. -/
def Calls.chowns (calls : Calls) : Calls := calls.filter (·.1.isChown)

/-- The changes of permissions among some calls. -/
def Calls.chmods (calls : Calls) : Calls := calls.filter (·.1.isChmod)

/-- The changes among some calls. -/
def Calls.changes (calls : Calls) : Calls := calls.filter (·.1.isChange)

namespace Calls

variable {path : Path} {uid gid mode : Nat} {e : Option OsError} {calls : Calls}

@[simp] theorem chowns_nil : chowns [] = [] := rfl

@[simp] theorem chowns_owner : chowns ((.owner path, e) :: calls) = chowns calls := rfl

@[simp] theorem chowns_chown :
    chowns ((.chown path uid gid, e) :: calls) = (.chown path uid gid, e) :: chowns calls := rfl

@[simp] theorem chowns_chmod : chowns ((.chmod path mode, e) :: calls) = chowns calls := rfl

@[simp] theorem chmods_nil : chmods [] = [] := rfl

@[simp] theorem chmods_owner : chmods ((.owner path, e) :: calls) = chmods calls := rfl

@[simp] theorem chmods_chown : chmods ((.chown path uid gid, e) :: calls) = chmods calls := rfl

@[simp] theorem chmods_chmod :
    chmods ((.chmod path mode, e) :: calls) = (.chmod path mode, e) :: chmods calls := rfl

/-- A call of some kind comes behind the first call, if that one is not of this kind. -/
theorem eq_cons_of_append {p : Call → Bool} {first call : Call} {e error : Option OsError}
    {rest before after : Calls} (h : (first, e) :: rest = before ++ (call, error) :: after)
    (hcall : p call = true) (hfirst : p first = false) :
    ∃ later, before = (first, e) :: later ∧ rest = later ++ (call, error) :: after := by
  rcases List.cons_eq_append_iff.1 h with ⟨-, heq⟩ | hlater
  · cases heq
    rw [hcall] at hfirst
    cases hfirst
  · exact hlater

end Calls

namespace System

variable {σ : Type}

/-- The checks that come before any change: the privilege, what the inherited master resolves to,
and that this is a character device. -/
structure Cleared (sys : System σ) (s : σ) (path : Path) : Prop where
  privileged : sys.effectiveUid s = Ownership.rootUid
  resolved : sys.slave s = .ok path
  device : sys.isCharacterDevice s path = true

/-- The ownership that a slave is to have after an attempt. -/
def target (sys : System σ) (mode : Mode) (s : σ) : Ownership :=
  .forMode mode (sys.realUid s) (sys.ttyGid s)

/-- The calls that an attempt can make. Each one but the first is made because of the answer to the
one before it. -/
inductive Conduct (sys : System σ) (mode : Mode) (s : σ) : Calls → Prop
  | refused : Conduct sys mode s []
  | unread {path : Path} (e : OsError) (cleared : sys.Cleared s path) :
      Conduct sys mode s [(.owner path, some e)]
  | kept {path : Path} {prior : Nat × Nat} (e : OsError) (cleared : sys.Cleared s path)
      (read : sys.owner s path = .ok prior) :
      Conduct sys mode s
        [(.owner path, none),
          (.chown path (sys.target mode s).uid (sys.target mode s).gid, some e)]
  | changed {path : Path} {prior : Nat × Nat} (cleared : sys.Cleared s path)
      (read : sys.owner s path = .ok prior) :
      Conduct sys mode s
        [(.owner path, none),
          (.chown path (sys.target mode s).uid (sys.target mode s).gid, none),
          (.chmod path (sys.target mode s).mode, none)]
  | undone {path : Path} {prior : Nat × Nat} (e : OsError) (undo : Option OsError)
      (cleared : sys.Cleared s path) (read : sys.owner s path = .ok prior) :
      Conduct sys mode s
        [(.owner path, none),
          (.chown path (sys.target mode s).uid (sys.target mode s).gid, none),
          (.chmod path (sys.target mode s).mode, some e),
          (.chown path prior.1 prior.2, undo)]

variable {sys : System σ} {mode : Mode} {s : σ} {path : Path} {prior : Nat × Nat}

/-- What has been checked is transferred. -/
theorem execute_of_cleared (cleared : sys.Cleared s path) (read : sys.owner s path = .ok prior) :
    sys.execute mode s =
      { sys.transfer path (sys.target mode s) prior s with
        calls := (.owner path, none) ::
          (sys.transfer path (sys.target mode s) prior s).calls } := by
  obtain ⟨privileged, resolved, device⟩ := cleared
  simp [execute, privileged, resolved, device, read, target]

/-- What has not been checked is left alone. -/
theorem execute_of_not_cleared (mode : Mode)
    (h : ∀ path prior, sys.Cleared s path → sys.owner s path ≠ .ok prior) :
    (sys.execute mode s).system = s ∧ ((sys.execute mode s).calls = [] ∨
      ∃ path e, sys.Cleared s path ∧ (sys.execute mode s).calls = [(.owner path, some e)]) := by
  unfold execute
  split
  · exact ⟨rfl, .inl rfl⟩
  next privileged =>
  split
  · exact ⟨rfl, .inl rfl⟩
  next path resolved =>
  split
  · exact ⟨rfl, .inl rfl⟩
  next device =>
  have cleared : sys.Cleared s path :=
    ⟨Decidable.not_not.1 privileged, resolved, by simpa using device⟩
  split
  · next e _ => exact ⟨rfl, .inr ⟨path, e, cleared, rfl⟩⟩
  · next prior read => exact absurd read (h path prior cleared)

/-- A slave whose owner can be read has passed all checks, or there is none. -/
theorem cleared_or_not (sys : System σ) (s : σ) :
    (∃ path prior, sys.Cleared s path ∧ sys.owner s path = .ok prior) ∨
      ∀ path prior, sys.Cleared s path → sys.owner s path ≠ .ok prior := by
  by_cases h : ∃ path prior, sys.Cleared s path ∧ sys.owner s path = .ok prior
  · exact .inl h
  · exact .inr fun path prior cleared read ↦ h ⟨path, prior, cleared, read⟩

/-- An attempt makes calls that an attempt can make. -/
theorem conduct (sys : System σ) (mode : Mode) (s : σ) :
    sys.Conduct mode s (sys.execute mode s).calls := by
  rcases sys.cleared_or_not s with ⟨path, prior, cleared, read⟩ | h
  · rw [execute_of_cleared cleared read]
    unfold transfer
    dsimp only
    split
    · next e _ => exact .kept e cleared read
    split
    · exact .changed cleared read
    · next e _ => exact .undone e _ cleared read
  · obtain ⟨-, hnone | ⟨path, e, cleared, hread⟩⟩ := execute_of_not_cleared mode h
    · rw [hnone]
      exact .refused
    · rw [hread]
      exact .unread e cleared

/-- A system that writes down the changes that are asked of it, each with its answer. -/
def witnessed (sys : System σ) : System (σ × Calls) where
  effectiveUid s := sys.effectiveUid s.1
  realUid s := sys.realUid s.1
  ttyGid s := sys.ttyGid s.1
  slave s := sys.slave s.1
  isCharacterDevice s path := sys.isCharacterDevice s.1 path
  owner s path := sys.owner s.1 path
  chown s path uid gid :=
    let (error, next) := sys.chown s.1 path uid gid
    (error, next, s.2 ++ [(.chown path uid gid, error)])
  chmod s path mode :=
    let (error, next) := sys.chmod s.1 path mode
    (error, next, s.2 ++ [(.chmod path mode, error)])

/-- A transfer asks for the changes that are in its record, and for no others. -/
theorem system_transfer_witnessed (sys : System σ) (path : Path) (target : Ownership)
    (prior : Nat × Nat) (s : σ) (written : Calls) :
    (sys.witnessed.transfer path target prior (s, written)).system =
      ((sys.transfer path target prior s).system,
        written ++ Calls.changes (sys.transfer path target prior s).calls) := by
  unfold transfer
  dsimp only [witnessed]
  cases hchown : (sys.chown s path target.uid target.gid).1 with
  | some e => rfl
  | none =>
    dsimp only
    cases hchmod : (sys.chmod (sys.chown s path target.uid target.gid).2 path target.mode).1 with
    | some e => simp [Calls.changes, Call.isChange, Call.isChown, Call.isChmod]
    | none => simp [Calls.changes, Call.isChange, Call.isChown, Call.isChmod]

/-- An attempt asks for the changes that are in its record, and for no others. -/
theorem system_execute_witnessed (sys : System σ) (mode : Mode) (s : σ) (written : Calls) :
    (sys.witnessed.execute mode (s, written)).system =
      ((sys.execute mode s).system, written ++ Calls.changes (sys.execute mode s).calls) := by
  rcases sys.cleared_or_not s with ⟨path, prior, cleared, read⟩ | h
  · have hcleared : sys.witnessed.Cleared (s, written) path :=
      ⟨cleared.privileged, cleared.resolved, cleared.device⟩
    have hread : sys.witnessed.owner (s, written) path = .ok prior := read
    rw [execute_of_cleared cleared read, execute_of_cleared hcleared hread]
    exact system_transfer_witnessed sys path (sys.target mode s) prior s written
  · have hnot : ∀ path prior, sys.witnessed.Cleared (s, written) path →
        sys.witnessed.owner (s, written) path ≠ .ok prior :=
      fun path prior cleared ↦ h path prior ⟨cleared.privileged, cleared.resolved, cleared.device⟩
    obtain ⟨hsystem, hcalls⟩ := execute_of_not_cleared mode h
    rw [(execute_of_not_cleared mode hnot).1, hsystem]
    rcases hcalls with hnone | ⟨path, e, -, hread⟩
    · rw [hnone]
      exact congrArg _ (List.append_nil written).symm
    · rw [hread]
      exact congrArg _ (List.append_nil written).symm

/-- What the calls of an attempt keep to: nothing is changed that was not checked, and every call is
on the slave; there are at most one change of permissions and two of owner; permissions are changed
only when the owner was changed; the owner is changed again exactly if the change of permissions
fails, and then to what was read before the first change; and the first change of owner and that of
permissions are those that the mode asks for. -/
structure Confined (sys : System σ) (mode : Mode) (s : σ) (calls : Calls) : Prop where
  checked : ∀ before call error after, calls = before ++ (call, error) :: after →
    call.isChange = true → ∃ path prior, sys.Cleared s path ∧ sys.owner s path = .ok prior ∧
      (.owner path, none) ∈ before
  onSlave : ∀ call ∈ calls, sys.slave s = .ok call.1.path
  chmods_le : calls.chmods.length ≤ 1
  chowns_le : calls.chowns.length ≤ 2
  ordered : ∀ before call error after, calls = before ++ (call, error) :: after →
    call.isChmod = true → ∃ chown, Calls.chowns before = [(chown, none)]
  undone_iff : calls.chowns.length = 2 ↔ ∃ call ∈ calls.chmods, call.2 ≠ none
  restored : ∀ first second later, calls.chowns = first :: second :: later →
    ∃ prior, sys.owner s second.1.path = .ok prior ∧
      second.1 = .chown second.1.path prior.1 prior.2
  given : ∀ first later, calls.chowns = first :: later →
    first.1 = .chown first.1.path (sys.target mode s).uid (sys.target mode s).gid
  opened : ∀ call ∈ calls.chmods, call.1 = .chmod call.1.path (sys.target mode s).mode

namespace Conduct

variable {calls : Calls}

/-- Nothing is changed before the owner was read of a slave that has passed all checks. -/
theorem checked (h : sys.Conduct mode s calls) {before after : Calls} {call : Call}
    {error : Option OsError} (hcalls : calls = before ++ (call, error) :: after)
    (hcall : call.isChange = true) :
    ∃ path prior, sys.Cleared s path ∧ sys.owner s path = .ok prior ∧
      (.owner path, none) ∈ before := by
  cases h with
  | refused => simp at hcalls
  | unread =>
    obtain ⟨later, -, hrest⟩ := Calls.eq_cons_of_append hcalls hcall rfl
    simp at hrest
  | kept _ cleared read | changed cleared read | undone _ _ cleared read =>
    obtain ⟨later, rfl, -⟩ := Calls.eq_cons_of_append hcalls hcall rfl
    exact ⟨_, _, cleared, read, List.mem_cons_self⟩

/-- All calls are on the slave. -/
theorem onSlave (h : sys.Conduct mode s calls) :
    ∀ call ∈ calls, sys.slave s = .ok call.1.path := by
  cases h with
  | refused => simp
  | unread _ cleared | kept _ cleared | changed cleared | undone _ _ cleared =>
    simp [Call.path, cleared.resolved]

/-- Permissions are changed right behind a change of owner that has succeeded. -/
theorem ordered (h : sys.Conduct mode s calls) {before after : Calls} {call : Call}
    {error : Option OsError} (hcalls : calls = before ++ (call, error) :: after)
    (hcall : call.isChmod = true) : ∃ chown, Calls.chowns before = [(chown, none)] := by
  cases h with
  | refused => simp at hcalls
  | unread =>
    obtain ⟨later, -, hrest⟩ := Calls.eq_cons_of_append hcalls hcall rfl
    simp at hrest
  | kept =>
    obtain ⟨later, -, hrest⟩ := Calls.eq_cons_of_append hcalls hcall rfl
    obtain ⟨last, -, hnone⟩ := Calls.eq_cons_of_append hrest hcall rfl
    simp at hnone
  | changed =>
    obtain ⟨later, rfl, hrest⟩ := Calls.eq_cons_of_append hcalls hcall rfl
    obtain ⟨last, rfl, hlast⟩ := Calls.eq_cons_of_append hrest hcall rfl
    rcases List.cons_eq_append_iff.1 hlast with ⟨rfl, -⟩ | ⟨more, -, hmore⟩
    · exact ⟨_, rfl⟩
    · simp at hmore
  | undone =>
    obtain ⟨later, rfl, hrest⟩ := Calls.eq_cons_of_append hcalls hcall rfl
    obtain ⟨last, rfl, hlast⟩ := Calls.eq_cons_of_append hrest hcall rfl
    rcases List.cons_eq_append_iff.1 hlast with ⟨rfl, -⟩ | ⟨more, -, hmore⟩
    · exact ⟨_, rfl⟩
    -- What undoes the change of owner is no second change of permissions.
    · obtain ⟨others, -, hnone⟩ := Calls.eq_cons_of_append hmore hcall rfl
      simp at hnone

/-- Calls that an attempt can make keep to all that. -/
theorem confined (h : sys.Conduct mode s calls) : sys.Confined mode s calls where
  checked _ _ _ _ := h.checked
  onSlave := h.onSlave
  chmods_le := by cases h <;> simp
  chowns_le := by cases h <;> simp
  ordered _ _ _ _ := h.ordered
  undone_iff := by cases h <;> simp
  restored := by
    cases h with
    | undone e undo cleared read =>
      intro first second later hchowns
      simp only [Calls.chowns_owner, Calls.chowns_chown, Calls.chowns_chmod, Calls.chowns_nil,
        List.cons.injEq] at hchowns
      obtain ⟨-, rfl, -⟩ := hchowns
      exact ⟨_, read, rfl⟩
    | _ => simp
  given := by cases h <;> simp [Call.path]
  opened := by cases h <;> simp [Call.path]

end Conduct

/-- A slave is given to the caller when it is granted, and to root when it is revoked. -/
theorem uid_target (sys : System σ) (s : σ) :
    (sys.target .grant s).uid = sys.realUid s ∧
      (sys.target .revoke s).uid = Ownership.rootUid :=
  ⟨rfl, rfl⟩

/-- It makes no difference to a revocation who the caller is. -/
theorem execute_revoke_caller (sys : System σ) (realUid : σ → Nat) (s : σ) :
    { sys with realUid }.execute .revoke s = sys.execute .revoke s := rfl

/-- The changes in the record of an attempt are those that the system is asked for. They keep to
what has been checked: no change comes before the privilege, the slave, its kind and its owner, and
none is to another path; permissions are changed at most once and only behind a change of owner, the
owner is changed a second time exactly if the permissions fail, and then back to what it was. The
first change of owner is to the caller or to root, as the mode has it, and a revocation does not
depend on the caller. -/
theorem changes_checked {σ : Type} (sys : System σ) :
    (∀ mode s,
      (∀ written, (sys.witnessed.execute mode (s, written)).system =
        ((sys.execute mode s).system, written ++ Calls.changes (sys.execute mode s).calls)) ∧
      sys.Confined mode s (sys.execute mode s).calls) ∧
    (∀ s, (sys.target .grant s).uid = sys.realUid s ∧
      (sys.target .revoke s).uid = Ownership.rootUid) ∧
    ∀ (realUid : σ → Nat) s, { sys with realUid }.execute .revoke s = sys.execute .revoke s := by
  constructor
  · intro mode s
    exact ⟨system_execute_witnessed sys mode s, (sys.conduct mode s).confined⟩
  · exact ⟨uid_target sys, execute_revoke_caller sys⟩

/-- A slave of the first user whose permissions are refused: it goes back to this user. -/
theorem changes_checked_refused :
    let path : Path := ⟨Bytes.ofAscii "/dev/pts/3"⟩
    let sys : System (Nat × Nat) :=
      { effectiveUid := fun _ ↦ 0
        realUid := fun _ ↦ 1001
        ttyGid := fun _ ↦ 5
        slave := fun _ ↦ .ok path
        isCharacterDevice := fun _ _ ↦ true
        owner := fun s _ ↦ .ok s
        chown := fun _ _ uid gid ↦ (none, uid, gid)
        chmod := fun s _ _ ↦ (some .notPermitted, s) }
    sys.Confined .grant (1000, 7) (sys.execute .grant (1000, 7)).calls ∧
      (sys.execute .grant (1000, 7)).system = (1000, 7) ∧
      Calls.changes (sys.execute .grant (1000, 7)).calls =
        [(.chown path 1001 5, none), (.chmod path 0o620, some .notPermitted),
          (.chown path 1000 7, none)] := by
  intro path sys
  exact ⟨((changes_checked sys).1 .grant (1000, 7)).2, rfl, rfl⟩

end System

end PtyHost.Broker
