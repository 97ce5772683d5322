import PtyHost.Toml.Number
import PtyHost.Toml.Value

/-!
# TOML documents

Reads the text of a document as a table. Every fault is alike here: there is no table then.
-/

namespace PtyHost.Toml

/-- A scalar that is not a string. -/
def scalar? (cs : List Char) : Option (Value × List Char) :=
  match cs with
  | 't' :: 'r' :: 'u' :: 'e' :: rest => some (.boolean true, rest)
  | 'f' :: 'a' :: 'l' :: 's' :: 'e' :: rest => some (.boolean false, rest)
  | _ =>
    match datetime? cs with
    | some (d, rest) => some (.datetime d, rest)
    | none =>
      match float? cs with
      | some rest => some (.float, rest)
      | none => (integer? cs).map fun (n, rest) ↦ (.integer n, rest)

/-- The values of an array, read behind its bracket. A comma may follow the last one. -/
def items? (value? : List Char → Option (Value × List Char)) :
    (fuel : Nat) → List Char → Option (List Value × List Char)
  | 0, _ => none
  | fuel + 1, cs =>
    match skipGap cs with
    | ']' :: rest => some ([], rest)
    | cs => do
      let (v, rest) ← value? cs
      match skipGap rest with
      | ',' :: rest => do
        let (vs, rest) ← items? value? fuel rest
        return (v :: vs, rest)
      | ']' :: rest => return ([v], rest)
      | _ => none

/-- The entries of a table, read behind its brace, or behind a comma in it; `made` holds those in
front of it. -/
def pairs? (value? : List Char → Option (Value × List Char)) :
    (fuel : Nat) → (made : Entries) → List Char → Option (Entries × List Char)
  | 0, _, _ => none
  | fuel + 1, made, cs => do
    let ((path, key), rest) ← keyPath? cs
    let (v, rest) ← value? (skipBlanks (← expect '=' rest))
    let made ← made.insertAt path key v .braces
    match skipBlanks rest with
    | ',' :: rest => pairs? value? fuel made rest
    | rest => return (made, ← expect '\x7d' rest)

/-- A value in which arrays and tables are nested at most `depth` deep. -/
def value? : (depth : Nat) → List Char → Option (Value × List Char)
  | 0, cs =>
    match cs with
    | '[' :: _ | '\x7b' :: _ => none
    | '"' :: _ | '\x27' :: _ => (string? cs).map fun (s, rest) ↦ (.string s, rest)
    | _ => scalar? cs
  | depth + 1, cs =>
    match cs with
    | '[' :: rest =>
      (items? (value? depth) (rest.length + 1) rest).map fun (vs, rest) ↦ (.array false vs, rest)
    | '\x7b' :: rest =>
      match skipBlanks rest with
      | '\x7d' :: rest => some (.table .braces [], rest)
      | _ =>
        (pairs? (value? depth) (rest.length + 1) [] rest).map fun (es, rest) ↦
          (.table .braces es, rest)
    | '"' :: _ | '\x27' :: _ => (string? cs).map fun (s, rest) ↦ (.string s, rest)
    | _ => scalar? cs

/-- The depth to which arrays and tables may be nested. -/
def maxDepth : Nat := 79

/-- A document being read: its entries, and the keys of the header that it is below. -/
structure Reading where
  entries : Entries := []
  header : List String := []

/-- Reads a key and its value. -/
def Reading.pair (r : Reading) (cs : List Char) : Option (Reading × List Char) := do
  let ((path, key), rest) ← keyPath? cs
  let (v, rest) ← value? maxDepth (skipBlanks (← expect '=' rest))
  let rest ← lineEnd? rest
  let entries ← r.entries.modifyAt false
    (fun origin entries ↦ entries.insertAt path key v origin) r.header .header
  return ({ r with entries }, rest)

/-- Reads the header of a table, behind its bracket. -/
def Reading.tableHeader (r : Reading) (cs : List Char) : Option (Reading × List Char) := do
  let ((path, key), rest) ← keyPath? cs
  let rest ← lineEnd? (← expect ']' rest)
  let entries ← r.entries.modifyAt false (fun o es ↦ es.openTable key o) path .header
  return (⟨entries, path ++ [key]⟩, rest)

/-- Reads the header of a table in an array, behind its brackets. -/
def Reading.elementHeader (r : Reading) (cs : List Char) : Option (Reading × List Char) := do
  let ((path, key), rest) ← keyPath? cs
  let rest ← lineEnd? (← expect ']' (← expect ']' rest))
  let entries ← r.entries.modifyAt false (fun o es ↦ es.openElement key o) path .header
  return (⟨entries, path ++ [key]⟩, rest)

/-- Reads line after line. -/
def Reading.lines : (fuel : Nat) → Reading → List Char → Option Reading
  | 0, _, _ => none
  | fuel + 1, r, cs =>
    match skipBlanks cs with
    | [] => some r
    | '\n' :: rest => lines fuel r rest
    | '#' :: rest => do lines fuel r (← lineEnd? ('#' :: rest))
    | '[' :: '[' :: rest => do
      let (r, rest) ← r.elementHeader rest
      lines fuel r rest
    | '[' :: rest => do
      let (r, rest) ← r.tableHeader rest
      lines fuel r rest
    | cs => do
      let (r, rest) ← r.pair cs
      lines fuel r rest

/-- The text without a byte order mark at its start. -/
def skipByteOrderMark : List Char → List Char
  | '\uFEFF' :: rest => rest
  | cs => cs

/-- The table that a document describes. -/
def read : Reader := fun text ↦
  let cs := unixLines (skipByteOrderMark text.toList)
  (Reading.lines (cs.length + 1) {} cs).map (·.entries)

end PtyHost.Toml
