import LabelFleet.Json.Basic
import LabelFleet.Number.Digits

/-! Exact decimal numbers as databases keep them, and the cells in which they are shown. -/
namespace LabelFleet.Database

/-- The number `mantissa / 10 ^ scale` with a sign. -/
structure Numeric where
  negative : Bool
  mantissa : Nat
  /-- The number of digits after the point. -/
  scale : Nat
  mantissa_lt : mantissa < Nat.pow 2 96
  scale_le : scale ≤ 28
deriving DecidableEq, Repr

namespace Numeric

/-- The number of units that make up one. -/
def unit (d : Numeric) : Nat := Nat.pow 10 d.scale

def text (d : Numeric) : String :=
  let whole := Digits.ofNat (d.mantissa / d.unit)
  let sign := if d.negative then ['-'] else []
  if d.scale = 0 then String.ofList (sign ++ whole)
  else String.ofList (sign ++ whole ++ '.' :: Digits.padded d.scale (d.mantissa % d.unit))

/-- The product `r * a ^ n`, by repeated squaring. -/
def power (r a : Float) (n : Nat) : Float :=
  let r := if n % 2 = 1 then r * a else r
  if n < 2 then r else power r (a * a) (n / 2)
termination_by n
decreasing_by omega

/-- The double for the absolute value. Whole part and fraction are converted by themselves and
added; rounding the sum at the scale takes away what the addition has put behind it. -/
def magnitude (d : Numeric) : Float :=
  let whole := Binary64.ofNat (d.mantissa / d.unit)
  if d.mantissa % d.unit = 0 then whole
  else
    let shift := power 1 10 d.scale
    let sum := whole + Binary64.ofNat (d.mantissa % d.unit) / Binary64.ofNat d.unit
    Binary64.round (sum * shift) / shift

def toFloat (d : Numeric) : Float :=
  if d.negative && !(d.scale == 0 && d.mantissa == 0) then Binary64.negate d.magnitude
  else d.magnitude

/-- The cell of a number: its double, or its text where no double comes near it. -/
def toJson (d : Numeric) : Json :=
  if Binary64.isFinite d.toFloat then .double d.toFloat else .string d.text

/-- The number with a mantissa and a scale, if it is one that can be kept. -/
def ofParts? (negative : Bool) (mantissa scale : Nat) : Option Numeric :=
  if h : mantissa < Nat.pow 2 96 ∧ scale ≤ 28 then some ⟨negative, mantissa, scale, h.1, h.2⟩
  else none

/-- The fraction `num / den` with as many digits after the point as fit, but at most `scale`; a half
is rounded away from zero. -/
def ofFraction? (negative : Bool) (num den : Nat) : Nat → Option Numeric
  | 0 => ofParts? negative ((2 * num + den) / (2 * den)) 0
  | scale + 1 =>
    (ofParts? negative ((2 * num * Nat.pow 10 (scale + 1) + den) / (2 * den)) (scale + 1)).or
      (ofFraction? negative num den scale)

end Numeric

end LabelFleet.Database
