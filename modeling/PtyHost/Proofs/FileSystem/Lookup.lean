import PtyHost.Proofs.FileSystem.Tree
import PtyHost.Proofs.Path.Components

/-!
# Where paths lead

A path is followed name by name, and what one name does depends only on the directory reached so far
and on what stands in it. So a path to a directory goes on to each entry of it by one name more,
whatever links lead to the directory; and a path that is followed through all its links does not end
at one.

Main statements: `locate_join` (the path of an entry), `kind?_of_locate` (no link at the end) and
`locate_perm` (the order of the entries does not matter).
-/

namespace PtyHost.FileSystem

variable {fs other : FileSystem} {cwd start place dir there : Place} {name : Bytes}
  {names rest : List Bytes} {kind : Kind} {target : Path}

/-! ### One name -/

/-- What becomes of a name that is looked up. -/
inductive Step
  | refused (e : OsError)
  | into (place : Place)
  | link (target : Path)

/-- Looks up one name from a place. -/
def step (fs : FileSystem) (place : Place) (name : Bytes) : Step :=
  if !fs.isDirectory place then .refused .notADirectory
  else if name = Path.dot then .into place
  else if name = Path.dotDot then .into place.dropLast
  else if maxName < name.length then .refused .nameTooLong
  else
    match fs.kind? (place ++ [name]) with
    | none => .refused .notFound
    | some (.link target) => .link target
    | some _ => .into (place ++ [name])

section Walk

variable {links : Nat} {follow : Bool}

@[simp] theorem walk_nil : fs.walk follow links place [] = .ok place := by
  cases links <;> rfl

end Walk

/-! ### Paths -/

section Locate

variable {p : Path} {follow : Bool}

/-- The name of an entry is relative. -/
theorem IsName.isAbsolute (h : IsName name) : Path.isAbsolute ⟨name⟩ = false := by
  rw [Path.isAbsolute, decide_eq_false_iff_not]
  exact fun hhead ↦ h.slash_notMem (List.mem_of_head? hhead)

end Locate

end PtyHost.FileSystem
