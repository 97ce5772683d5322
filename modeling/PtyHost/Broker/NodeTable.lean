import PtyHost.Broker.Transfer

/-!
# A table of device nodes

A system that is a table of nodes in memory, with faults that can be set for each kind of call.
What an attempt to grant or revoke does to the nodes can be read off this table. A node is found
under its path however that is spelled.

Main statements: a change reaches its node (`node?_update_self`) and no other
(`node?_update_of_not_same`).
-/

namespace PtyHost.Broker

/-- A node of the table. -/
structure Node where
  path : Path
  ownership : Ownership
  isCharacterDevice : Bool
deriving DecidableEq, Repr

/-- Which calls are to fail for want of permission: the reading of an owner, the first change of
owner, any later one, and the change of permissions. -/
structure Faults where
  owner : Bool := false
  chown : Bool := false
  undo : Bool := false
  chmod : Bool := false
deriving DecidableEq, Repr

/-- Who asks, and what the inherited master resolves to. -/
structure Request where
  effectiveUid : Nat
  realUid : Nat
  ttyGid : Nat
  slave : Except Error Path

/-- A table of nodes, no two of one path, with the number of owner changes asked for so far. -/
structure NodeTable where
  nodes : List Node
  chowns : Nat := 0
deriving DecidableEq, Repr

namespace NodeTable

/-- The first node of a path. -/
def node? (t : NodeTable) (path : Path) : Option Node := t.nodes.find? fun n ↦ n.path.Same path

/-- Changes the ownership of the node of a path; there is an error if there is none. -/
def update (t : NodeTable) (path : Path) (change : Ownership → Ownership) :
    Option OsError × NodeTable :=
  match t.node? path with
  | none => (some .notFound, t)
  | some _ =>
    (none, { t with nodes := t.nodes.map fun n ↦
      if n.path.Same path then { n with ownership := change n.ownership } else n })

/-- The owner and group of the node of a path. -/
def owner (t : NodeTable) (path : Path) : Except OsError (Nat × Nat) :=
  match t.node? path with
  | some n => .ok (n.ownership.uid, n.ownership.gid)
  | none => .error .notFound

/-- The system of a table with faults, for one request. -/
def system (r : Request) (f : Faults) : System NodeTable where
  effectiveUid _ := r.effectiveUid
  realUid _ := r.realUid
  ttyGid _ := r.ttyGid
  slave _ := r.slave
  isCharacterDevice t path := (t.node? path).any (·.isCharacterDevice)
  owner t path := if f.owner then .error .notPermitted else t.owner path
  chown t path uid gid :=
    let counted := { t with chowns := t.chowns + 1 }
    if (if t.chowns = 0 then f.chown else f.undo) then (some .notPermitted, counted)
    else counted.update path fun o ↦ { o with uid, gid }
  chmod t path mode :=
    if f.chmod then (some .notPermitted, t) else t.update path fun o ↦ { o with mode }

/-- Answers one request, with the faults set for it. -/
def execute (t : NodeTable) (r : Request) (f : Faults) (mode : Mode) : Attempt NodeTable :=
  (system r f).execute mode { t with chowns := 0 }

/-- A node whose ownership was changed is the same node with the change. -/
theorem node?_update_self {t : NodeTable} {path : Path} {n : Node} (change : Ownership → Ownership)
    (h : t.node? path = some n) :
    (t.update path change).2.node? path = some { n with ownership := change n.ownership } := by
  simp only [update, h]
  obtain ⟨nodes, _⟩ := t
  simp only [node?] at h ⊢
  induction nodes with
  | nil => simp at h
  | cons m rest ih =>
    by_cases hm : m.path.Same path
    · rw [List.find?_cons_of_pos (by simpa using hm), Option.some.injEq] at h
      simp [hm, ← h]
    · rw [List.find?_cons_of_neg (by simpa using hm)] at h
      rw [List.map_cons, if_neg hm, List.find?_cons_of_neg (by simpa using hm)]
      exact ih h

/-- The other nodes stay as they are when the ownership of one is changed. -/
theorem node?_update_of_not_same {t : NodeTable} {path other : Path}
    (change : Ownership → Ownership) (h : ¬other.Same path) :
    (t.update path change).2.node? other = t.node? other := by
  unfold update
  cases t.node? path with
  | none => rfl
  | some _ =>
    obtain ⟨nodes, _⟩ := t
    simp only [node?]
    induction nodes with
    | nil => rfl
    | cons m rest ih =>
      rw [List.map_cons, List.find?_cons, List.find?_cons, ih]
      by_cases hm : m.path.Same path
      · have hne : ¬m.path.Same other := fun e ↦ h (Eq.trans (Eq.symm e) hm)
        simp only [if_pos hm, decide_eq_false hne]
      · simp only [if_neg hm]

end NodeTable

end PtyHost.Broker
