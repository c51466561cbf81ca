import LabelFleet.Number.Decimal
import LabelFleet.Number.Hex
import LabelFleet.Toml.Date

/-! The numbers of TOML. -/
namespace LabelFleet.Toml

/-- Further digits, each after at most one underscore. -/
def moreDigits? (isDigit : Char → Bool) : Reader (List Char)
  | [] => some ([], [])
  | '_' :: s =>
    match s with
    | [] => none
    | c :: s =>
      if isDigit c then (moreDigits? isDigit s).map fun (ds, rest) => (c :: ds, rest) else none
  | c :: s =>
    if isDigit c then (moreDigits? isDigit s).map fun (ds, rest) => (c :: ds, rest)
    else some ([], c :: s)

def someDigits? (isDigit : Char → Bool) : Reader (List Char)
  | [] => none
  | c :: s =>
    if isDigit c then (moreDigits? isDigit s).map fun (ds, rest) => (c :: ds, rest) else none

/-- Digits of an integer; a zero stands alone. -/
def wholeDigits? : Reader (List Char)
  | '0' :: s => some (['0'], s)
  | s => someDigits? Char.isDigit s

/-- A power of ten after the digits. -/
def power? : Reader (Option Int)
  | c :: s =>
    if c = 'e' ∨ c = 'E' then do
      let (negative, s) := Digits.splitSign s
      let (ds, s) ← someDigits? Char.isDigit s
      return (some (if negative then -(Digits.toNat ds : Int) else Digits.toNat ds), s)
    else some (none, c :: s)
  | [] => some (none, [])

/-- A number with a point or a power of ten. One that is too large is refused, unless it is
negative. -/
def decimalFloat? : Reader Value := fun s => do
  let (negative, s) := Digits.splitSign s
  let (whole, s) ← wholeDigits? s
  let (fraction, s) ←
    match s with
    | '.' :: s => do
      let (ds, s) ← someDigits? Char.isDigit s
      pure (some ds, s)
    | s => pure (none, s)
  let (power, s) ← power? s
  if fraction.isNone ∧ power.isNone then none
  let ds := fraction.getD []
  let x := Decimal.nearest negative ⟨Digits.toNat (whole ++ ds), power.getD 0 - ds.length⟩
  if x = Binary64.infinity then none
  return (.float x, s)

/-- The words for infinity and for what is no number. -/
def specialFloat? : Reader Value := fun s => do
  let (negative, s) := Digits.splitSign s
  let (x, s) ←
    match s with
    | 'i' :: 'n' :: 'f' :: s => some (Binary64.infinity, s)
    | 'n' :: 'a' :: 'n' :: s => some (Binary64.nan, s)
    | _ => none
  return (.float (if negative then Binary64.negate x else x), s)

def integerOf? (n : Int) : Option Value :=
  if -9223372036854775808 ≤ n ∧ n < 9223372036854775808 then some (.integer n) else none

def decimalInteger? : Reader Value := fun s => do
  let (negative, s) := Digits.splitSign s
  let (ds, s) ← wholeDigits? s
  let n : Int := Digits.toNat ds
  return (← integerOf? (if negative then -n else n), s)

/-- An integer in another base, after its mark. -/
def basedInteger? (base : Nat) (isDigit : Char → Bool) : Reader Value := fun s => do
  let (ds, s) ← someDigits? isDigit s
  return (← integerOf? (Hex.inBase base ds), s)

def integer? : Reader Value
  | '0' :: 'x' :: s => basedInteger? 16 Hex.isDigit s
  | '0' :: 'o' :: s => basedInteger? 8 (fun c => '0' ≤ c && c ≤ '7') s
  | '0' :: 'b' :: s => basedInteger? 2 (fun c => c == '0' || c == '1') s
  | s => decimalInteger? s

/-- A value that starts with a sign or a digit. -/
def number? : Reader Value := fun s =>
  (dateTime? .strict s).map (fun (text, s) => (.dateTime text, s)) <|>
    decimalFloat? s <|> specialFloat? s <|> integer? s

end LabelFleet.Toml
