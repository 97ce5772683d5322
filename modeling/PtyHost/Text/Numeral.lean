/-!
# Numerals

Digits and their values, decimal numerals as they are read, and octal ones as they are written.
-/

namespace PtyHost.Numeral

/-- The value of a decimal digit. -/
def digit? (c : Char) : Option Nat :=
  if '0' ≤ c ∧ c ≤ '9' then some (c.toNat - '0'.toNat) else none

/-- The value of a hexadecimal digit. -/
def hexDigit? (c : Char) : Option Nat :=
  if 'a' ≤ c ∧ c ≤ 'f' then some (c.toNat - 'a'.toNat + 10)
  else if 'A' ≤ c ∧ c ≤ 'F' then some (c.toNat - 'A'.toNat + 10)
  else digit? c

/-- The value of a digit in a base of at most 16. -/
def digitIn? (base : Nat) (c : Char) : Option Nat := (hexDigit? c).filter (· < base)

/-- The value of a list of digits in `base`, the most significant first. -/
def ofDigits (base : Nat) (ds : List Nat) : Nat := ds.foldl (fun n d ↦ n * base + d) 0

/-- Reads one or more decimal digits, an optional plus sign before them, as a number of at most
`limit`. -/
def decimal? (limit : Nat) (cs : List Char) : Option Nat := do
  let digits := if cs.head? = some '+' then cs.tail else cs
  guard (digits ≠ [])
  let n := ofDigits 10 (← digits.mapM digit?)
  guard (n ≤ limit)
  return n

/-- Reads a decimal number of 16 bits. -/
def word? (s : String) : Option UInt16 := (decimal? 65535 s.toList).map (·.toUInt16)

/-- A number in octal digits. -/
def octal (n : Nat) : String := String.ofList (Nat.toDigits 8 n)

end PtyHost.Numeral
