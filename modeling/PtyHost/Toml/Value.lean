import PtyHost.Toml.Datetime

/-!
# TOML values

The values of TOML 1.0. A table knows how it came about, because that decides what later lines of
a document may add to it.
-/

namespace PtyHost.Toml

/-- How a table came about: between braces, by a header of its own, as a table on the way to
another header, or as one on the way to a dotted key. -/
inductive Origin
  | braces
  | header
  | way
  | dotted
deriving DecidableEq, Repr

/-- A value. The digits of a floating-point number are not kept. An array is `headed` if it is
made of tables that have headers of their own. -/
inductive Value
  | string (text : String)
  | integer (n : Int)
  | float
  | boolean (b : Bool)
  | datetime (d : Datetime)
  | array (headed : Bool) (items : List Value)
  | table (origin : Origin) (entries : List (String × Value))
deriving Repr

/-- The keys of a table with their values, in the order in which they were added. -/
abbrev Entries := List (String × Value)

/-- What reads documents: it finds the table that a text describes, if the text is a document. -/
abbrev Reader := String → Option Entries

namespace Entries

/-- Adds a key that is not there yet. With `viaDots`, the key was the last of several that dots
join, and then the table has to be one that dotted keys made; without, it has to be another. -/
def insert (viaDots : Bool) (key : String) (value : Value) (origin : Origin) (entries : Entries) :
    Option Entries := do
  guard (decide (origin = .dotted) = viaDots)
  guard (entries.lookup key).isNone
  return entries ++ [(key, value)]

/-- Gives the key a new value in place of the one it has. -/
def replace (entries : Entries) (key : String) (value : Value) : Entries :=
  entries.map fun (k, v) ↦ if k = key then (k, value) else (k, v)

/-- Changes the table that a path of keys leads to. Tables that are missing on the way are made,
and an array of headed tables stands for its last one. Values between braces and brackets are
closed, and dots cannot reach into a table that has a header. -/
def modifyAt (dotted : Bool) (change : Origin → Entries → Option Entries) :
    List String → Origin → Entries → Option Entries
  | [], origin, entries => change origin entries
  | key :: path, _, entries =>
    match entries.lookup key with
    | none => do
      let origin := if dotted then Origin.dotted else .way
      let inner ← modifyAt dotted change path origin []
      return entries ++ [(key, .table origin inner)]
    | some (.table origin inner) => do
      guard (origin ≠ .braces)
      guard (¬ (dotted ∧ origin = .header))
      let inner ← modifyAt dotted change path origin inner
      return entries.replace key (.table origin inner)
    | some (.array true items) =>
      match items.getLast? with
      | some (.table origin inner) => do
        let inner ← modifyAt dotted change path origin inner
        return entries.replace key (.array true (items.dropLast ++ [.table origin inner]))
      | _ => none
    | some _ => none

/-- Adds a value under a key, or under several that dots join. -/
def insertAt (path : List String) (key : String) (value : Value) (origin : Origin)
    (entries : Entries) : Option Entries :=
  entries.modifyAt true (insert (!path.isEmpty) key value) path origin

/-- Opens the table of a header. It may be there already, if it is only on the way to others. -/
def openTable (key : String) (_ : Origin) (entries : Entries) : Option Entries :=
  match entries.lookup key with
  | none => some (entries ++ [(key, .table .header [])])
  | some (.table .way inner) => some (entries.replace key (.table .header inner))
  | some _ => none

/-- Opens one more table in the array of a header. -/
def openElement (key : String) (_ : Origin) (entries : Entries) : Option Entries :=
  match entries.lookup key with
  | none => some (entries ++ [(key, .array true [.table .header []])])
  | some (.array true items) =>
    some (entries.replace key (.array true (items ++ [.table .header []])))
  | some _ => none

end Entries

end PtyHost.Toml
