import DeferredQuery.Calendar
import DeferredQuery.Number.Digits
import DeferredQuery.Number.Power
import DeferredQuery.Text.Blank

/-!
# Instants

A point in time to the nanosecond, and its text in the format of RFC 3339. A leap second is kept as
the second before it with a thousand million nanoseconds or more. It may stand behind any second, and
is written as the one that follows: as second 60 behind the last second of a minute, and else as an
ordinary second.

An instant is written in universal time, with the year in four digits when it has no more, and with
a sign otherwise. The reader takes any offset, blanks between the fields, and fields that are
shorter than usual.
-/

set_option autoImplicit false

namespace DeferredQuery

def minSeconds : Int := Date.toDays ⟨Date.minYear, 1, 1⟩ * 86400

def maxSeconds : Int := Date.toDays ⟨Date.maxYear, 12, 31⟩ * 86400 + 86399

/-- Whether an instant may have these seconds since 1970 and nanoseconds: there are years that it may
be in, and room for one leap second behind any second. -/
def Instant.IsValid (seconds : Int) (nanos : Nat) : Prop :=
  minSeconds ≤ seconds ∧ seconds ≤ maxSeconds ∧ nanos < 2000000000

instance (seconds : Int) (nanos : Nat) : Decidable (Instant.IsValid seconds nanos) := by
  unfold Instant.IsValid; infer_instance

/-- A point in time: whole seconds since 1970 and nanoseconds. -/
structure Instant where
  seconds : Int
  nanos : Nat
  isValid : Instant.IsValid seconds nanos
  deriving DecidableEq

namespace Instant

open Number Text

/-- The instant with these seconds and nanoseconds, if there is one. -/
def make? (seconds : Int) (nanos : Nat) : Option Instant :=
  if h : IsValid seconds nanos then some ⟨seconds, nanos, h⟩ else none

/-! ## Writing -/

/-- A year: four digits, or a sign and at least four. -/
def yearText (year : Int) : List Char :=
  if 0 ≤ year ∧ year ≤ 9999 then paddedDigits 4 year.toNat
  else (if year < 0 then '-' else '+') :: paddedDigits 4 year.natAbs

/-- Date and time of day up to the seconds. -/
def secondsText (i : Instant) : List Char :=
  let date := Date.ofDays (i.seconds / 86400)
  let secondOfDay := (i.seconds % 86400).toNat
  let second := secondOfDay % 60 + i.nanos / 1000000000
  yearText date.year ++ '-' :: paddedDigits 2 date.month ++ '-' :: paddedDigits 2 date.day
    ++ 'T' :: paddedDigits 2 (secondOfDay / 3600) ++ ':' :: paddedDigits 2 (secondOfDay / 60 % 60)
    ++ ':' :: paddedDigits 2 second

/-- Nanoseconds as a fraction with the fewest of 0, 3, 6 and 9 digits that hold them. -/
def fractionText (nanos : Nat) : List Char :=
  if nanos = 0 then []
  else if nanos % 1000000 = 0 then '.' :: paddedDigits 3 (nanos / 1000000)
  else if nanos % 1000 = 0 then '.' :: paddedDigits 6 (nanos / 1000)
  else '.' :: paddedDigits 9 nanos

def exactText (i : Instant) : List Char :=
  i.secondsText ++ fractionText (i.nanos % 1000000000) ++ ['Z']

/-- The instant to the millisecond, what is less being cut off. -/
def milliText (i : Instant) : List Char :=
  i.secondsText ++ '.' :: paddedDigits 3 (i.nanos % 1000000000 / 1000000) ++ ['Z']

/-! ## Reading -/

/-- Reads a number of at least one and at most `width` digits. -/
def readNumber? (width : Nat) (s : List Char) : Option (Nat × List Char) :=
  let ds := (s.take width).takeWhile Char.isDigit
  if ds = [] then none else some (value ds, s.drop ds.length)

/-- Reads a number of two digits at most, with blanks before it. -/
def readField? (s : List Char) : Option (Nat × List Char) := readNumber? 2 (dropBlanks s)

/-- Reads a year: with a sign it may have any number of digits, without one four. -/
def readYear? (s : List Char) : Option (Int × List Char) :=
  match dropBlanks s with
  | '-' :: rest => (readNumber? rest.length rest).map fun (n, rest) => (-(n : Int), rest)
  | '+' :: rest => (readNumber? rest.length rest).map fun (n, rest) => ((n : Int), rest)
  | rest => (readNumber? 4 rest).map fun (n, rest) => ((n : Int), rest)

/-- Reads a given character, with blanks before it. -/
def readMark? (mark : Char) (s : List Char) : Option (List Char) :=
  match dropBlanks s with
  | c :: rest => if c = mark then some rest else none
  | [] => none

def readSeparator? : List Char → Option (List Char)
  | c :: rest => if c = 't' ∨ c = 'T' ∨ c = ' ' then some rest else none
  | [] => none

/-- Reads a fraction of a second, if there is one; digits after the ninth do not count. -/
def readFraction? : List Char → Option (Nat × List Char)
  | '.' :: rest => do
    let (n, after) ← readNumber? 9 rest
    let places := rest.length - after.length
    some (n * tenPow (9 - places), after.dropWhile Char.isDigit)
  | s => some (0, s)

/-- Reads hours and minutes of an offset, as seconds. -/
def readClock? : List Char → Option (Int × List Char)
  | a :: b :: rest =>
    match rest.dropWhile fun c => c == ':' || isBlank c with
    | c :: d :: rest =>
      if a.isDigit ∧ b.isDigit ∧ c.isDigit ∧ d.isDigit ∧ digitValue c ≤ 5 then
        some ((value [a, b] * 3600 + value [c, d] * 60 : Nat), rest)
      else none
    | _ => none
  | _ => none

/-- Reads an offset from universal time: `UTC`, `Z`, or a sign, hours and minutes. -/
def readOffset? (s : List Char) : Option (Int × List Char) :=
  if (s.take 3).map Char.toUpper = ['U', 'T', 'C'] then some (0, s.drop 3)
  else
    match s with
    | 'Z' :: rest => some (0, rest)
    | 'z' :: rest => some (0, rest)
    | '+' :: rest => readClock? rest
    | '-' :: rest => (readClock? rest).map fun (n, rest) => (-n, rest)
    | '−' :: rest => (readClock? rest).map fun (n, rest) => (-n, rest)
    | _ => none

/-- The instant of a date and a time of day at an offset from universal time. -/
def ofFields? (date : Date) (hour minute second nanos : Nat) (offset : Int) : Option Instant :=
  if date.isValid ∧ Date.minYear ≤ date.year ∧ date.year ≤ Date.maxYear ∧ hour < 24 ∧ minute < 60
      ∧ second ≤ 60 ∧ offset.natAbs < 86400 then
    let leap := if second = 60 then 1 else 0
    make? (date.toDays * 86400 + hour * 3600 + minute * 60 + (second - leap : Nat) - offset)
      (nanos + leap * 1000000000)
  else none

def read? (s : List Char) : Option Instant := do
  let (year, s) ← readYear? s
  let (month, s) ← readField? (← readMark? '-' s)
  let (day, s) ← readField? (← readMark? '-' s)
  let (hour, s) ← readField? (← readSeparator? s)
  let (minute, s) ← readField? (← readMark? ':' s)
  let (second, s) ← readField? (← readMark? ':' s)
  let (nanos, s) ← readFraction? s
  let (offset, s) ← readOffset? (dropBlanks s)
  if dropBlanks s = [] then ofFields? ⟨year, month, day⟩ hour minute second nanos offset else none

end Instant

end DeferredQuery
