import PtyHost.Toml.Datetime
import PtyHost.Toml.Text

/-!
# The numbers and dates of a TOML document

Readers of integers, floating-point numbers, dates and times.
-/

namespace PtyHost.Toml

open Numeral

/-- One or more digits in a base. An underscore may stand between two of them. -/
def digits? (base : Nat) : List Char → Option ((List Nat) × List Char)
  | c :: '_' :: rest => do
    let d ← digitIn? base c
    let (ds, rest) ← digits? base rest
    return (d :: ds, rest)
  | c :: rest => do
    let d ← digitIn? base c
    match digits? base rest with
    | some (ds, rest) => return (d :: ds, rest)
    | none => if (rest.head?.bind (digitIn? base)).isSome then none else return ([d], rest)
  | [] => none

/-- A sign, if there is one: whether it is a minus. -/
def sign : List Char → Bool × List Char
  | '+' :: rest => (false, rest)
  | '-' :: rest => (true, rest)
  | cs => (false, cs)

/-- The digits of a decimal integer, which are more than one only if the first is not zero. -/
def decimalDigits? (cs : List Char) : Option ((List Nat) × List Char) :=
  match cs with
  | '0' :: rest => some ([0], rest)
  | _ => digits? 10 cs

/-- The integers of 64 bits. -/
def isWord (n : Int) : Bool := -(Nat.pow 2 63 : Int) ≤ n && n < (Nat.pow 2 63 : Int)

/-- An integer: decimal with or without a sign, or with a letter for its base. -/
def integer? (cs : List Char) : Option (Int × List Char) := do
  let (n, rest) ← match cs with
    | '0' :: 'x' :: rest => (digits? 16 rest).map fun (ds, rest) ↦ ((ofDigits 16 ds : Int), rest)
    | '0' :: 'o' :: rest => (digits? 8 rest).map fun (ds, rest) ↦ ((ofDigits 8 ds : Int), rest)
    | '0' :: 'b' :: rest => (digits? 2 rest).map fun (ds, rest) ↦ ((ofDigits 2 ds : Int), rest)
    | _ =>
      let (negative, unsigned) := sign cs
      (decimalDigits? unsigned).map fun (ds, rest) ↦
        (if negative then -(ofDigits 10 ds : Int) else (ofDigits 10 ds : Int), rest)
  guard (isWord n)
  return (n, rest)

/-- The fraction of a floating-point number, if there is one. -/
def fraction? : List Char → Option ((List Nat) × List Char)
  | '.' :: rest => digits? 10 rest
  | _ => none

/-- The exponent of a floating-point number, if there is one. -/
def exponent? : List Char → Option (Int × List Char)
  | 'e' :: rest | 'E' :: rest =>
    let (negative, unsigned) := sign rest
    (digits? 10 unsigned).map fun (ds, rest) ↦
      (if negative then -(ofDigits 10 ds : Int) else (ofDigits 10 ds : Int), rest)
  | _ => none

/-- The least number that rounds to infinity as a floating-point number of 64 bits. -/
def leastInfinite : Nat := Nat.pow 2 1024 - Nat.pow 2 970

/-- Whether `mantissa · 10 ^ exponent` rounds to infinity. The count of its digits settles all but
a few exponents. -/
def isInfinite (mantissa : Nat) (exponent : Int) : Bool :=
  let magnitude := (toString mantissa).length + exponent
  if mantissa = 0 ∨ magnitude < 300 then false
  else if 320 < magnitude then true
  else
    match exponent with
    | .ofNat e => leastInfinite ≤ mantissa * Nat.pow 10 e
    | .negSucc e => leastInfinite * Nat.pow 10 (e + 1) ≤ mantissa

/-- The text behind a floating-point number: decimal digits with a fraction, an exponent or both,
or one of the special values. A number too large is refused, and one too small is not. -/
def float? (cs : List Char) : Option (List Char) :=
  let (negative, unsigned) := sign cs
  match unsigned with
  | 'i' :: 'n' :: 'f' :: rest | 'n' :: 'a' :: 'n' :: rest => some rest
  | _ => do
    let (whole, rest) ← decimalDigits? unsigned
    let (part, rest) := (fraction? rest).getD ([], rest)
    let (exponent, rest) ←
      match exponent? rest with
      | some found => some found
      | none => if part = [] then none else some (0, rest)
    let mantissa := ofDigits 10 (whole ++ part)
    guard (negative ∨ !isInfinite mantissa (exponent - part.length))
    return rest

/-- A number of exactly `n` decimal digits. -/
def fixed? (n : Nat) (cs : List Char) : Option (Nat × List Char) := do
  let ds ← (cs.take n).mapM (digitIn? 10)
  guard (ds.length = n)
  return (ofDigits 10 ds, cs.drop n)

/-- The text behind a character. -/
def expect (c : Char) : List Char → Option (List Char)
  | d :: rest => if c = d then some rest else none
  | [] => none

/-- A date. -/
def date? (cs : List Char) : Option (Date × List Char) := do
  let (year, rest) ← fixed? 4 cs
  let (month, rest) ← fixed? 2 (← expect '-' rest)
  let (day, rest) ← fixed? 2 (← expect '-' rest)
  let date : Date := ⟨year, month, day⟩
  guard date.isValid
  return (date, rest)

/-- The nanoseconds of a fraction of a second; further digits are cut off. -/
def nanoseconds (ds : List Nat) : Nat :=
  ofDigits 10 ((ds ++ List.replicate 9 0).take 9)

/-- The fraction of a second, if there is one. -/
def secondFraction (cs : List Char) : Nat × List Char :=
  match cs with
  | '.' :: rest =>
    let ds := (rest.takeWhile fun c ↦ c.isDigit).filterMap (digitIn? 10)
    if ds = [] then (0, cs) else (nanoseconds ds, rest.dropWhile fun c ↦ c.isDigit)
  | _ => (0, cs)

/-- A time of day. -/
def time? (cs : List Char) : Option (Time × List Char) := do
  let (hour, rest) ← fixed? 2 cs
  let (minute, rest) ← fixed? 2 (← expect ':' rest)
  let (second, rest) ← fixed? 2 (← expect ':' rest)
  let (nanosecond, rest) := secondFraction rest
  let time : Time := ⟨hour, minute, second, nanosecond⟩
  guard time.isValid
  return (time, rest)

/-- An offset from universal time. -/
def offset? : List Char → Option (Offset × List Char)
  | 'Z' :: rest | 'z' :: rest => some (.universal, rest)
  | c :: rest => do
    guard (c = '+' ∨ c = '-')
    let (hours, rest) ← fixed? 2 rest
    let (minutes, rest) ← fixed? 2 (← expect ':' rest)
    guard (hours ≤ 23 ∧ minutes ≤ 59)
    return (.minutes (c = '+') (hours * 60 + minutes), rest)
  | [] => none

/-- A time of day behind a date and the character between them. -/
def timeOfDate? : List Char → Option (Time × List Char)
  | c :: rest => if c ∈ ['T', 't', ' '] then time? rest else none
  | [] => none

/-- A date, a time or both. -/
def datetime? (cs : List Char) : Option (Datetime × List Char) :=
  match date? cs with
  | some (date, rest) =>
    match timeOfDate? rest with
    | some (time, rest) =>
      match offset? rest with
      | some (offset, rest) => some (⟨some date, some time, some offset⟩, rest)
      | none => some (⟨some date, some time, none⟩, rest)
    | none => some (⟨some date, none, none⟩, rest)
  | none => (time? cs).map fun (time, rest) ↦ (⟨none, some time, none⟩, rest)

end PtyHost.Toml
