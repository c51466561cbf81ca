import LabelFleet.Number.Decimal

/-! Reading a double from text: digits around at most one point, then perhaps a power of ten; or one
of the words for infinity and for what is no number, in any case. A sign may stand in front. -/
namespace LabelFleet.Number

inductive ReadError
  | empty
  | invalid
deriving DecidableEq, Repr

def ReadError.message : ReadError → String
  | .empty => "cannot parse float from empty string"
  | .invalid => "invalid float literal"

/-- A power of ten after the digits: `e` or `E`, a sign, and digits up to the end. -/
def readPower : List Char → Option Int
  | [] => some 0
  | c :: s =>
    if c = 'e' ∨ c = 'E' then
      let (negative, ds) := Digits.splitSign s
      if ds.isEmpty ∨ !ds.all Char.isDigit then none
      else some (if negative then -(Digits.toNat ds : Int) else Digits.toNat ds)
    else none

def readMagnitude (s : List Char) : Option Decimal :=
  let (whole, rest) := Digits.run s
  let (fraction, rest) :=
    match rest with
    | '.' :: rest => Digits.run rest
    | rest => ([], rest)
  if whole.isEmpty ∧ fraction.isEmpty then none
  else (readPower rest).map fun e => ⟨Digits.toNat (whole ++ fraction), e - fraction.length⟩

def read (s : List Char) : Except ReadError Float :=
  if s.isEmpty then .error .empty
  else
    let (negative, body) := Digits.splitSign s
    let word := body.map Char.toLower
    if word = "inf".toList ∨ word = "infinity".toList then
      .ok (if negative then Binary64.negate Binary64.infinity else Binary64.infinity)
    else if word = "nan".toList then .ok Binary64.nan
    else
      match readMagnitude body with
      | some d => .ok (Decimal.nearest negative d)
      | none => .error .invalid

end LabelFleet.Number
