import LabelFleet.Number.Digits

/-! Dates of the Gregorian calendar, extended to all years, and times of day. -/
namespace LabelFleet

structure Date where
  year : Int
  /-- From 1 to 12. -/
  month : Nat
  /-- From 1 to 31. -/
  day : Nat
deriving DecidableEq, Repr

namespace Date

def cycleDays : Nat := 146097

/-- The date that many days after 1 January 1970. Years are counted from March, so that the leap day
is the last day of a year; `719468` is the day number of that date from 1 March of the year 0. -/
def ofDays (days : Int) : Date :=
  let z := days + 719468
  let cycle := Int.fdiv z cycleDays
  let n := (z - cycle * cycleDays).toNat
  let y := (n - n / 1460 + n / 36524 - n / 146096) / 365
  let d := n - (365 * y + y / 4 - y / 100)
  let m := (5 * d + 2) / 153
  let month := if m < 10 then m + 3 else m - 9
  let year : Int := y + cycle * 400
  ⟨if month ≤ 2 then year + 1 else year, month, d - (153 * m + 2) / 5 + 1⟩

/-- Four digits, and a sign for a year that needs more or comes before the year 0. -/
def yearText (year : Int) : List Char :=
  if 0 ≤ year ∧ year ≤ 9999 then Digits.padded 4 year.toNat
  else (if year < 0 then '-' else '+') :: Digits.padded 4 year.natAbs

def text (d : Date) : List Char :=
  yearText d.year ++ '-' :: Digits.padded 2 d.month ++ '-' :: Digits.padded 2 d.day

end Date

/-- A time of day in units of `1 / unit` second. -/
structure ClockTime where
  unit : Nat
  ticks : Nat
deriving DecidableEq, Repr

namespace ClockTime

def text (t : ClockTime) : List Char :=
  let s := t.ticks / t.unit
  Digits.padded 2 (s / 3600) ++ ':' :: Digits.padded 2 (s / 60 % 60) ++
    ':' :: Digits.padded 2 (s % 60)

def fraction (t : ClockTime) : Nat := t.ticks % t.unit

end ClockTime

/-- Milliseconds since the start of 1970, in Greenwich time. -/
structure Timestamp where
  millis : Int
deriving DecidableEq, Repr

def Timestamp.text (t : Timestamp) : String :=
  let day : Int := 86400000
  let days := Int.fdiv t.millis day
  let time : ClockTime := ⟨1000, (t.millis - days * day).toNat⟩
  String.ofList ((Date.ofDays days).text ++ 'T' :: time.text ++
    '.' :: Digits.padded 3 time.fraction ++ ['Z'])

end LabelFleet
