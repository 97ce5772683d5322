import PtyHost.OsError
import PtyHost.Path

/-!
# File trees

A tree of files, directories, symbolic links and devices, kept as the list of what stands at each
place below the root. Paths are resolved as the kernel does it: name by name, through at most
`maxLinks` links.
-/

namespace PtyHost

/-- A place in the tree: the names that lead there from the root. -/
abbrev Place := List Bytes

/-- The device and the inode number of a file, which no other file has. -/
structure Identity where
  device : Nat
  inode : Nat
deriving DecidableEq, Repr

namespace FileSystem

/-- What stands at a place. -/
inductive Kind
  | file (contents : Bytes) (executable : Bool)
  | directory
  | link (target : Path)
  | characterDevice
deriving DecidableEq, Repr

/-- A place with what stands there. -/
structure Entry where
  place : Place
  kind : Kind
  identity : Identity
deriving DecidableEq, Repr

end FileSystem

/-- A file tree. The root is there without an entry of its own. -/
structure FileSystem where
  entries : List FileSystem.Entry := []
deriving Repr

namespace FileSystem

/-- The number of links that one path may run through. -/
def maxLinks : Nat := 40

/-- The length of the longest path. -/
def maxPath : Nat := 4095

/-- The length of the longest name. -/
def maxName : Nat := 255

/-- The entry at a place. -/
def entry? (fs : FileSystem) (place : Place) : Option Entry :=
  fs.entries.find? fun e ↦ e.place = place

/-- What stands at a place. -/
def kind? (fs : FileSystem) (place : Place) : Option Kind :=
  if place = [] then some .directory else (fs.entry? place).map (·.kind)

/-- Whether a directory stands at a place. -/
def isDirectory (fs : FileSystem) (place : Place) : Bool := fs.kind? place = some .directory

/-- The inode number of the root. -/
def rootInode : Nat := 1

/-- An inode number that no entry has. -/
def freeInode (fs : FileSystem) : Nat :=
  fs.entries.foldl (fun n e ↦ max n e.identity.inode) rootInode + 1

/-- The tree without the entry at a place. -/
def erase (fs : FileSystem) (place : Place) : FileSystem :=
  ⟨fs.entries.filter fun e ↦ e.place ≠ place⟩

/-- Adds an entry with an inode number of its own. -/
def add (fs : FileSystem) (place : Place) (kind : Kind) : FileSystem :=
  ⟨fs.entries ++ [⟨place, kind, ⟨1, fs.freeInode⟩⟩]⟩

/-- The names that a path asks the kernel to look up; a trailing slash asks for a directory. -/
def lookups (p : Path) : List Bytes :=
  p.segments ++ if p.bytes.getLast? = some Path.slash then [Path.dot] else []

/-- Follows names from a place. A link that has to be followed is handed to `onLink`, together
with the directory it stands in and the names behind it; with `follow` off, one at the end of the
path is not followed. -/
def followNames (fs : FileSystem) (follow : Bool)
    (onLink : Place → Path → List Bytes → Except OsError Place) :
    Place → List Bytes → Except OsError Place
  | place, [] => .ok place
  | place, name :: rest =>
    if !fs.isDirectory place then .error .notADirectory
    else if name = Path.dot then followNames fs follow onLink place rest
    else if name = Path.dotDot then followNames fs follow onLink place.dropLast rest
    else if maxName < name.length then .error .nameTooLong
    else
      match fs.kind? (place ++ [name]) with
      | none => .error .notFound
      | some (.link target) =>
        if rest = [] ∧ !follow then .ok (place ++ [name]) else onLink place target rest
      | some _ => followNames fs follow onLink (place ++ [name]) rest

/-- Follows names from a place, through at most `links` links. -/
def walk (fs : FileSystem) (follow : Bool) : Nat → Place → List Bytes → Except OsError Place
  | 0, place, names => fs.followNames follow (fun _ _ _ ↦ .error .tooManyLinks) place names
  | links + 1, place, names =>
    fs.followNames follow
      (fun dir target rest ↦
        walk fs follow links (if target.isAbsolute then [] else dir) (lookups target ++ rest))
      place names

/-- The place that a path leads to, seen from the directory `cwd`. -/
def locate (fs : FileSystem) (cwd : Place) (p : Path) (follow : Bool := true) :
    Except OsError Place :=
  if p.bytes = [] then .error .notFound
  else if maxPath < p.bytes.length then .error .nameTooLong
  else fs.walk follow maxLinks (if p.isAbsolute then [] else cwd) (lookups p)

/-- Whether a path leads anywhere. -/
def exists? (fs : FileSystem) (cwd : Place) (p : Path) : Bool := (fs.locate cwd p).toBool

/-- What a path leads to. -/
def status (fs : FileSystem) (cwd : Place) (p : Path) (follow : Bool := true) :
    Except OsError Kind := do
  match fs.kind? (← fs.locate cwd p follow) with
  | some kind => .ok kind
  | none => .error .notFound

/-- The contents of the file that a path leads to. -/
def read (fs : FileSystem) (cwd : Place) (p : Path) : Except OsError Bytes := do
  match ← fs.status cwd p with
  | .file contents _ => .ok contents
  | .directory => .error .isADirectory
  | _ => .ok []

/-- The path of a place from the root. -/
def pathTo (place : Place) : Path :=
  if place = [] then ⟨[Path.slash]⟩ else ⟨place.flatMap fun name ↦ Path.slash :: name⟩

/-- The name that an entry has in the directory at a place, if it stands in it. -/
def Entry.nameIn? (e : Entry) (dir : Place) : Option Bytes :=
  if e.place.dropLast = dir then e.place.getLast? else none

/-- The identity of what a path leads to. -/
def identity (fs : FileSystem) (cwd : Place) (p : Path) (follow : Bool := true) :
    Except OsError Identity := do
  let place ← fs.locate cwd p follow
  match fs.entry? place with
  | some e => .ok e.identity
  | none => if place = [] then .ok ⟨1, rootInode⟩ else .error .notFound

/-- What a directory says of one of its entries: the name, and the inode number of what stands
there. -/
structure Listed where
  name : Bytes
  inode : Nat
deriving DecidableEq, Repr

/-- What the directory that a path leads to lists. -/
def list (fs : FileSystem) (cwd : Place) (dir : Path) : Except OsError (List Listed) := do
  let place ← fs.locate cwd dir
  if fs.isDirectory place then
    .ok (fs.entries.filterMap fun e ↦ (e.nameIn? place).map (⟨·, e.identity.inode⟩))
  else .error .notADirectory

/-- The calls that fail for a reason that the tree does not show, such as missing rights, by the
path that is asked for: the listing of a directory and the reading of an identity. -/
structure Faults where
  list : Path → Option OsError := fun _ ↦ none
  identity : Path → Option OsError := fun _ ↦ none

/-- The path of an entry of the directory `dir` that has an identity of its own equal to `id`. The
directory vouches for the inode number only, so each entry that has it is looked at again by its
path; a link counts as itself and not as what it leads to, and what cannot be looked at does not
count. -/
def findByIdentity (fs : FileSystem) (cwd : Place) (dir : Path) (id : Identity)
    (faults : Faults := {}) : Option Path :=
  match faults.list dir, fs.list cwd dir with
  | none, .ok listed =>
    ((listed.filter (·.inode = id.inode)).map fun l ↦ dir.join ⟨l.name⟩).find? fun p ↦
      faults.identity p = none ∧ (fs.identity cwd p false).toOption = some id
  | _, _ => none

end FileSystem

end PtyHost
