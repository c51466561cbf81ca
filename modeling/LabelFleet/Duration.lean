import LabelFleet.Number.Digits

/-! Lengths of time, exact to the nanosecond, and their text. -/
namespace LabelFleet

structure Duration where
  nanos : Nat
deriving DecidableEq, Repr

namespace Duration

def ofMillis (n : Nat) : Duration := ⟨n * 1000000⟩

def ofSeconds (n : Nat) : Duration := ⟨n * 1000000000⟩

/-- Whole milliseconds; what is left over is dropped. -/
def millis (d : Duration) : Nat := d.nanos / 1000000

@[simp] theorem millis_ofMillis (n : Nat) : (ofMillis n).millis = n := by
  simp [millis, ofMillis]

/-- Whole milliseconds, at most `2 ^ 64 - 1`. -/
def boundedMillis (d : Duration) : Nat := min d.millis (Nat.pow 2 64 - 1)

/-- A count of units with the exact fraction. -/
def inUnits (places n : Nat) : List Char :=
  let whole := Digits.ofNat (n / Nat.pow 10 places)
  match Digits.fraction places (n % Nat.pow 10 places) with
  | [] => whole
  | ds => whole ++ '.' :: ds

/-- The duration in the largest unit of which it holds at least one. -/
def text (d : Duration) : String :=
  if 1000000000 ≤ d.nanos then String.ofList (inUnits 9 d.nanos) ++ "s"
  else if 1000000 ≤ d.nanos then String.ofList (inUnits 6 d.nanos) ++ "ms"
  else if 1000 ≤ d.nanos then String.ofList (inUnits 3 d.nanos) ++ "µs"
  else Digits.text d.nanos ++ "ns"

end Duration

end LabelFleet
