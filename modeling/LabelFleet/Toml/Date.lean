import LabelFleet.Calendar
import LabelFleet.Toml.Basic

/-! Dates and times of TOML, as values of a document and as texts of their own. -/
namespace LabelFleet.Toml

def digits? (n : Nat) : Reader Nat := fun s =>
  let ds := s.take n
  if ds.length = n ∧ ds.all Char.isDigit then some (Digits.toNat ds, s.drop n) else none

/-- A number of two digits in the given bounds. -/
def two? (least most : Nat) : Reader Nat := fun s => do
  let (n, s) ← digits? 2 s
  if least ≤ n ∧ n ≤ most then some (n, s) else none

def isLeapYear (y : Nat) : Bool := y % 4 == 0 && (y % 100 != 0 || y % 400 == 0)

def daysOfMonth (y m : Nat) : Nat :=
  if m = 2 then (if isLeapYear y then 29 else 28)
  else if m = 4 ∨ m = 6 ∨ m = 9 ∨ m = 11 then 30
  else 31

def date? : Reader Date := fun s => do
  let (y, s) ← digits? 4 s
  let (m, s) ← two? 1 12 (← Text.char? '-' s)
  let (d, s) ← two? 1 (daysOfMonth y m) (← Text.char? '-' s)
  return (⟨y, m, d⟩, s)

/-- The fraction of a second in nanoseconds; further digits are dropped. -/
def fraction? : Reader Nat
  | '.' :: s =>
    match Digits.run s with
    | ([], _) => none
    | (ds, rest) =>
      let kept := ds.take 9
      some (Digits.toNat kept * Nat.pow 10 (9 - kept.length), rest)
  | s => some (0, s)

/-- Hours, minutes and seconds as they were written, and the digits of the fraction without zeros at
the end. -/
def timeText (h m sec f : Nat) : List Char :=
  let ds := Digits.fraction 9 f
  Digits.padded 2 h ++ ':' :: Digits.padded 2 m ++ ':' :: Digits.padded 2 sec ++
    (if ds.isEmpty then [] else '.' :: ds)

/-- How much a clock may show. A distance to Greenwich time is at most a day in any case. -/
structure Bounds where
  hour : Nat
  offsetHour : Nat
  offsetMinute : Nat

namespace Bounds

/-- For a value of a document. -/
def strict : Bounds := ⟨23, 23, 59⟩

/-- For a text of its own. -/
def lenient : Bounds := ⟨24, 99, 99⟩

end Bounds

/-- The text of a time of day; a minute may have a leap second. -/
def timeText? (bounds : Bounds) : Reader (List Char) := fun s => do
  let (h, s) ← two? 0 bounds.hour s
  let (m, s) ← two? 0 59 (← Text.char? ':' s)
  let (sec, s) ← two? 0 60 (← Text.char? ':' s)
  let (f, s) ← fraction? s
  return (timeText h m sec f, s)

/-- The distance to Greenwich time, if there is one; a distance of nothing has a plus sign. -/
def offsetText? (bounds : Bounds) : Reader (List Char)
  | 'Z' :: s => some (['Z'], s)
  | 'z' :: s => some (['Z'], s)
  | c :: s =>
    if c = '+' ∨ c = '-' then do
      let (h, s) ← two? 0 bounds.offsetHour s
      let (m, s) ← two? 0 bounds.offsetMinute (← Text.char? ':' s)
      let minutes := 60 * h + m
      if 1440 < minutes then none
      let sign := if minutes = 0 then '+' else c
      return (sign :: Digits.padded 2 (minutes / 60) ++ ':' :: Digits.padded 2 (minutes % 60), s)
    else some ([], c :: s)
  | [] => some ([], [])

/-- The time that may follow a date. -/
def restOfDate? (bounds : Bounds) : Reader (List Char)
  | c :: s =>
    if c = 'T' ∨ c = 't' ∨ c = ' ' then do
      let (time, s) ← timeText? bounds s
      let (offset, s) ← offsetText? bounds s
      return ('T' :: time ++ offset, s)
    else none
  | [] => none

/-- The usual text of a date, a time of day or both. -/
def dateTime? (bounds : Bounds) : Reader String := fun s =>
  match date? s with
  | some (d, s) =>
    let (rest, s) := (restOfDate? bounds s).getD ([], s)
    some (String.ofList (d.text ++ rest), s)
  | none => do
    let (time, s) ← timeText? bounds s
    return (String.ofList time, s)

/-- The name that marks a table as a date if its first entry has it. -/
def dateMark : String := "$__toml_private_datetime"

/-- The value of the mark in a table that is marked as a date. -/
def markedDate? : Entries → Option Value
  | (k, v) :: _ => if k = dateMark then some v else none
  | [] => none

/-- The usual text of the date that a mark gives: a text with a date in it and nothing else. -/
def Value.dateText? : Value → Option String
  | .string s =>
    match dateTime? .lenient s.toList with
    | some (text, []) => some text
    | _ => none
  | _ => none

end LabelFleet.Toml
