import LabelFleet.Number.Decimal

/-! How a double is written. A `Style` decides which numbers are written positionally, whether a
whole number keeps its point, which of two equally short texts is taken, and what stands for the
values that are not finite. -/
namespace LabelFleet

structure Style where
  /-- Whether a number whose first digit counts `10 ^ e` is written without an exponent. -/
  positional : Int → Bool
  /-- A whole number ends in `.0`. -/
  pointKept : Bool
  tie : Decimal.Tie
  infinity : String
  negativeInfinity : String
  nan : String

namespace Style

/-- Digits before, around or after the point, as the exponent of the last digit asks. -/
def positionalText (pointKept : Bool) (ds : List Char) (e : Int) : List Char :=
  if 0 ≤ e then
    ds ++ List.replicate e.toNat '0' ++ if pointKept then ['.', '0'] else []
  else
    let whole := (ds.length : Int) + e
    if 0 < whole then ds.take whole.toNat ++ '.' :: ds.drop whole.toNat
    else '0' :: '.' :: (List.replicate (-whole).toNat '0' ++ ds)

/-- One digit before the point; the sign of the exponent is always written. -/
def exponentText (ds : List Char) (e : Int) : List Char :=
  let top := (ds.length : Int) - 1 + e
  let mantissa :=
    match ds with
    | d :: f :: fs => d :: '.' :: f :: fs
    | ds => ds
  mantissa ++ 'e' :: (if top < 0 then '-' else '+') :: Digits.ofNat top.natAbs

def positiveText (style : Style) (x : Float) : List Char :=
  let d := Decimal.shortest style.tie x
  let ds := Digits.ofNat d.digits
  if style.positional ((ds.length : Int) - 1 + d.exponent) then
    positionalText style.pointKept ds d.exponent
  else exponentText ds d.exponent

def text (style : Style) (x : Float) : List Char :=
  if Binary64.isNaN x then style.nan.toList
  else if !Binary64.isFinite x then
    (if Binary64.isNegative x then style.negativeInfinity else style.infinity).toList
  else
    let body :=
      if Binary64.significand x = 0 then positionalText style.pointKept ['0'] 0
      else positiveText style (Float.ofBits (x.toBits &&& 0x7fffffffffffffff))
    if Binary64.isNegative x then '-' :: body else body

/-- Running text: no exponent and no point in a whole number. -/
def plain : Style where
  positional _ := true
  pointKept := false
  tie := .up
  infinity := "inf"
  negativeInfinity := "-inf"
  nan := "NaN"

/-- JSON text: a point or an exponent always shows that the number is a double, and a value that is
not finite is `null`. -/
def json : Style where
  positional e := decide (-5 ≤ e) && decide (e ≤ 15)
  pointKept := true
  tie := .toEven
  infinity := "null"
  negativeInfinity := "null"
  nan := "null"

end Style

end LabelFleet
