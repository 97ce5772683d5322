/-!
# Dates and times

The dates and times of TOML: a day, a time of day, or both, and then perhaps an offset from
universal time.
-/

namespace PtyHost.Toml

/-- A day of the calendar. -/
structure Date where
  year : Nat
  month : Nat
  day : Nat
deriving DecidableEq, Repr

/-- A time of day. -/
structure Time where
  hour : Nat
  minute : Nat
  second : Nat
  nanosecond : Nat := 0
deriving DecidableEq, Repr

/-- An offset from universal time. -/
inductive Offset
  | universal
  | minutes (east : Bool) (n : Nat)
deriving DecidableEq, Repr

/-- A date, a time or both. -/
structure Datetime where
  date : Option Date := none
  time : Option Time := none
  offset : Option Offset := none
deriving DecidableEq, Repr

/-- A number in at least `width` digits. -/
def padded (width n : Nat) : String :=
  let digits := toString n
  String.ofList (List.replicate (width - digits.length) '0') ++ digits

namespace Date

/-- The number of days of a month. -/
def daysInMonth (year month : Nat) : Nat :=
  if month = 2 then
    if year % 4 = 0 ∧ (year % 100 ≠ 0 ∨ year % 400 = 0) then 29 else 28
  else if month ∈ [4, 6, 9, 11] then 30
  else 31

/-- Whether there is such a day. -/
def isValid (d : Date) : Bool :=
  1 ≤ d.month && d.month ≤ 12 && 1 ≤ d.day && d.day ≤ daysInMonth d.year d.month

/-- A day in words. -/
def display (d : Date) : String :=
  padded 4 d.year ++ "-" ++ padded 2 d.month ++ "-" ++ padded 2 d.day

end Date

namespace Time

/-- Whether there is such a time. A minute may have a leap second. -/
def isValid (t : Time) : Bool := t.hour ≤ 23 && t.minute ≤ 59 && t.second ≤ 60

/-- The fraction of a second, without zeros at its end. -/
def fraction (nanosecond : Nat) : String :=
  if nanosecond = 0 then ""
  else "." ++ String.ofList ((padded 9 nanosecond).toList.reverse.dropWhile (· = '0')).reverse

/-- A time in words. -/
def display (t : Time) : String :=
  padded 2 t.hour ++ ":" ++ padded 2 t.minute ++ ":" ++ padded 2 t.second ++ fraction t.nanosecond

end Time

/-- An offset in words. No offset at all counts as one to the east. -/
def Offset.display : Offset → String
  | .universal => "Z"
  | .minutes east n =>
    (if east ∨ n = 0 then "+" else "-") ++ padded 2 (n / 60) ++ ":" ++ padded 2 (n % 60)

/-- A date and time in words. -/
def Datetime.display (d : Datetime) : String :=
  (d.date.map Date.display).getD "" ++ (if d.date.isSome ∧ d.time.isSome then "T" else "") ++
    (d.time.map Time.display).getD "" ++ (d.offset.map Offset.display).getD ""

end PtyHost.Toml
