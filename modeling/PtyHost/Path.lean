import PtyHost.Text.Utf8

/-!
# Paths

A path is a byte string in which slashes separate names. Its components are what it says beyond
its spelling: repeated slashes, inner dots and a trailing slash do not count.
-/

namespace PtyHost

/-- A path, in the spelling in which it was given. -/
structure Path where
  bytes : Bytes
deriving DecidableEq, Repr

namespace Path

/-- The byte between names. -/
def slash : UInt8 := 0x2F

/-- A path in ASCII. -/
def ofAscii (s : String) : Path := ⟨Bytes.ofAscii s⟩

/-- The path named by a text. -/
def ofText (s : String) : Path := ⟨Utf8.encode s⟩

/-- The path as it is shown in messages. -/
def display (p : Path) : String := Utf8.decodeLossy p.bytes

/-- Whether the path begins at the root directory. -/
def isAbsolute (p : Path) : Bool := p.bytes.head? = some slash

/-- The nonempty pieces between slashes. -/
def segments (p : Path) : List Bytes := (p.bytes.fields slash).filter (· ≠ [])

/-- The segment of the directory itself. -/
def dot : Bytes := [0x2E]

/-- The segment of the directory above. -/
def dotDot : Bytes := [0x2E, 0x2E]

/-- One step of a path. -/
inductive Component
  | root
  | current
  | parent
  | normal (name : Bytes)
deriving DecidableEq, Repr

/-- The steps of a list of segments; a dot is no step. -/
def stepsOf (segments : List Bytes) : List Component :=
  segments.filterMap fun s ↦
    if s = dot then none else if s = dotDot then some .parent else some (.normal s)

/-- The components of a path. A dot counts only at the start of a relative path. -/
def components (p : Path) : List Component :=
  if p.isAbsolute then .root :: stepsOf p.segments
  else if p.segments.head? = some dot then .current :: stepsOf p.segments
  else stepsOf p.segments

/-- Paths are the same whose components are, however they are spelled. -/
def Same (p q : Path) : Prop := p.components = q.components

instance (p q : Path) : Decidable (p.Same q) := inferInstanceAs (Decidable (_ = _))

/-- A path is the same as itself. -/
@[simp] theorem Same.refl (p : Path) : p.Same p := rfl

/-- The name of what the path leads to, unless it ends at the root, a dot or two dots. -/
def fileName? (p : Path) : Option Bytes :=
  match p.components.getLast? with
  | some (.normal name) => some name
  | _ => none

/-- Whether a field of a path is no step: it is empty or a dot. -/
def isIdle (field : Bytes) : Bool := field = [] || field = dot

/-- The step that any other field is. -/
def stepOf (name : Bytes) : Component := if name = dotDot then .parent else .normal name

/-- Fields without those at their end that are no steps. -/
def withoutIdleEnd (fields : List Bytes) : List Bytes :=
  (fields.reverse.dropWhile isIdle).reverse

/-- A path that is read from its front: the step that its start is, for as long as this has not been
read, and the fields behind. -/
structure Cursor where
  start : Option Component
  fields : List Bytes
deriving DecidableEq, Repr

namespace Cursor

/-- Stands in front of a path. -/
def before (p : Path) : Cursor :=
  let fields := p.bytes.fields slash
  if p.isAbsolute then ⟨some .root, fields.tail⟩
  else if fields.head? = some dot then ⟨some .current, fields.tail⟩
  else ⟨none, fields⟩

/-- The next step, with what is left behind it. -/
def next? (c : Cursor) : Option (Component × Cursor) :=
  match c.start with
  | some step => some (step, ⟨none, c.fields⟩)
  | none =>
    match c.fields.dropWhile isIdle with
    | [] => none
    | name :: rest => some (stepOf name, ⟨none, rest⟩)

/-- What is left behind some steps, if these come next. -/
def behind? (c : Cursor) : List Component → Option Cursor
  | [] => some c
  | step :: steps =>
    match c.next? with
    | some (found, rest) => if found = step then rest.behind? steps else none
    | none => none

/-- What is left, as a path of its own. -/
def path (c : Cursor) : Path :=
  match c.start with
  | none => ⟨Bytes.joined slash (withoutIdleEnd (c.fields.dropWhile isIdle))⟩
  | some .root => ⟨slash :: Bytes.joined slash (withoutIdleEnd c.fields)⟩
  | some _ => ⟨Bytes.joined slash (dot :: withoutIdleEnd c.fields)⟩

end Cursor

/-- What is left of a path behind the components of `dir`, if it begins with them. -/
def below? (p dir : Path) : Option Path :=
  ((Cursor.before p).behind? dir.components).map Cursor.path

/-- The name that a path is, if it is nothing else. -/
def single? (p : Path) : Option Bytes :=
  match p.components with
  | [.normal name] => some name
  | _ => none

/-- The path that continues `p` by `q`: an absolute `q` stands alone, and a slash comes between
unless `p` is empty or ends with one. -/
def join (p q : Path) : Path :=
  if q.isAbsolute then q
  else if p.bytes = [] ∨ p.bytes.getLast? = some slash then ⟨p.bytes ++ q.bytes⟩
  else ⟨p.bytes ++ slash :: q.bytes⟩

end Path

end PtyHost
