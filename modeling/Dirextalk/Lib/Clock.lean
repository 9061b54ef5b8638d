/-
  Dirextalk.Lib.Clock — times of Go's `time` package in the layout `time.RFC3339Nano`:
  what `time.Parse` accepts and the text `Format` gives back in UTC.
-/
import Mathlib.Algebra.GroupWithZero.Nat
import Dirextalk.Lib.Go

namespace Dirextalk.Lib.Go

/-- A point in time: seconds since 1970-01-01T00:00:00Z, and nanoseconds. -/
structure Time where
  unix : Int
  nsec : Nat

/-! ## The calendar -/

def isLeap (year : Int) : Bool := year % 4 == 0 && (year % 100 != 0 || year % 400 == 0)

def daysIn (year : Int) (month : Nat) : Nat :=
  if month = 2 then (if isLeap year then 29 else 28) else if month ∈ [4, 6, 9, 11] then 30 else 31

/-- Days from 1 January of year 1 to 1 January 1970. -/
def unixEpochDays : Int := 719162

/-- Days from 1 January of year 1 to the given day. -/
def dayNumber (year : Int) (month day : Nat) : Int :=
  let y := year - 1
  365 * y + y / 4 - y / 100 + y / 400 + Int.ofNat (((List.range month).drop 1).map (daysIn year)).sum +
    Int.ofNat day - 1

/-- Month and day of the `d`-th day of a year, counted from zero. -/
def monthDay (year : Int) : List Nat → Nat → Nat × Nat
  | [], d => (12, d + 1)
  | m :: ms, d => if d < daysIn year m then (m, d + 1) else monthDay year ms (d - daysIn year m)

/-- Year, month and day, from the number of days since 1 January of year 1. -/
def civil (days : Int) : Int × Nat × Nat :=
  let r := days % 146097
  let n100 := min 3 (r / 36524)
  let r := r - 36524 * n100
  let n4 := r / 1461
  let r := r - 1461 * n4
  let n1 := min 3 (r / 365)
  let year := 400 * (days / 146097) + 100 * n100 + 4 * n4 + n1 + 1
  (year, monthDay year ((List.range 13).drop 1) (r - 365 * n1).toNat)

/-! ## Parsing -/

def isDigit (c : Char) : Bool := '0' ≤ c && c ≤ '9'

def number (l : List Char) : Nat := l.foldl (fun n c => 10 * n + (c.toNat - '0'.toNat)) 0

/-- Exactly `n` digits. -/
def takeDigits (n : Nat) (l : List Char) : Option (Nat × List Char) :=
  if (l.take n).length = n ∧ (l.take n).all isDigit then some (number (l.take n), l.drop n) else none

/-- One or two digits, as the hour of a layout is read. -/
def takeHour (l : List Char) : Option (Nat × List Char) := takeDigits 2 l <|> takeDigits 1 l

def takeChar (c : Char) : List Char → Option (List Char)
  | x :: l => if x = c then some l else none
  | [] => none

def guardIn (lo n hi : Nat) : Option Unit := if lo ≤ n ∧ n ≤ hi then some () else none

/-- An optional fraction, of which nine digits count. -/
def takeFraction : List Char → Nat × List Char
  | sep :: d :: l =>
    if (sep = '.' ∨ sep = ',') ∧ isDigit d then
      let digits := (d :: l).takeWhile isDigit
      (number ((digits ++ List.replicate 9 '0').take 9), (d :: l).dropWhile isDigit)
    else (0, sep :: d :: l)
  | l => (0, l)

/-- `Z` or an offset; the offset is in seconds. -/
def takeZone : List Char → Option (Int × List Char)
  | 'Z' :: l => some (0, l)
  | sign :: l => do
    let (hour, l) ← takeDigits 2 l
    let l ← takeChar ':' l
    let (minute, l) ← takeDigits 2 l
    guardIn 0 hour 24
    guardIn 0 minute 60
    let offset : Int := (hour * 60 + minute) * 60
    if sign = '+' then some (offset, l) else if sign = '-' then some (-offset, l) else none
  | [] => none

/-- `time.Parse(time.RFC3339Nano, value)`. -/
def parseRFC3339Nano (value : String) : Option Time := do
  let (year, l) ← takeDigits 4 value.toList
  let l ← takeChar '-' l
  let (month, l) ← takeDigits 2 l
  guardIn 1 month 12
  let l ← takeChar '-' l
  let (day, l) ← takeDigits 2 l
  let l ← takeChar 'T' l
  let (hour, l) ← takeHour l
  guardIn 0 hour 23
  let l ← takeChar ':' l
  let (minute, l) ← takeDigits 2 l
  guardIn 0 minute 59
  let l ← takeChar ':' l
  let (second, l) ← takeDigits 2 l
  guardIn 0 second 59
  let (nsec, l) := takeFraction l
  let (offset, l) ← takeZone l
  if l ≠ [] then none
  guardIn 1 day (daysIn year month)
  let days := dayNumber year month day - unixEpochDays
  return ⟨days * 86400 + (hour * 60 + minute) * 60 + second - offset, nsec⟩

/-- `Time.IsZero`: 1 January of year 1. -/
def Time.isZero (t : Time) : Bool := t.unix == -unixEpochDays * 86400 && t.nsec == 0

/-! ## Formatting -/

def padded (width n : Nat) : List Char :=
  let digits := Nat.toDigits 10 n
  List.replicate (width - digits.length) '0' ++ digits

def formatFraction (nsec : Nat) : List Char :=
  if nsec = 0 then [] else '.' :: ((padded 9 nsec).reverse.dropWhile (· = '0')).reverse

/-- `t.UTC().Format(time.RFC3339Nano)`. -/
def formatRFC3339Nano (t : Time) : String :=
  let (year, month, day) := civil (t.unix / 86400 + unixEpochDays)
  let second := (t.unix % 86400).toNat
  String.ofList ((if year < 0 then ['-'] else []) ++ padded 4 year.natAbs ++ ['-'] ++ padded 2 month ++ ['-'] ++ padded 2 day ++
    ['T'] ++ padded 2 (second / 3600) ++ [':'] ++ padded 2 (second / 60 % 60) ++ [':'] ++ padded 2 (second % 60) ++
    formatFraction t.nsec ++ ['Z'])

example : (parseRFC3339Nano "2024-02-29T23:59:58.120-01:30").map formatRFC3339Nano = some "2024-03-01T01:29:58.12Z" := by
  decide

example : (parseRFC3339Nano "2023-02-29T00:00:00Z") = none := by decide

end Dirextalk.Lib.Go
