/-! Double precision numbers as integers. A finite number is `significand * 2 ^ exponent`, and
`ofFraction` is the number nearest to a fraction, a tie going to the even significand. -/
namespace LabelFleet.Binary64

/-- The eleven bits that say how large the number is. -/
def exponentBits (x : Float) : Nat := x.toBits.toNat / Nat.pow 2 52 % 2048

def fractionBits (x : Float) : Nat := x.toBits.toNat % Nat.pow 2 52

def isNegative (x : Float) : Bool := Nat.pow 2 63 ≤ x.toBits.toNat

def isFinite (x : Float) : Bool := exponentBits x != 2047

def isNaN (x : Float) : Bool := exponentBits x == 2047 && fractionBits x != 0

def significand (x : Float) : Nat :=
  if exponentBits x = 0 then fractionBits x else fractionBits x + Nat.pow 2 52

def exponent (x : Float) : Int := (max (exponentBits x) 1 : Nat) - 1075

/-- `num / den` divided by `base ^ e`, again as a fraction. -/
def scaleDown (base num den : Nat) (e : Int) : Nat × Nat :=
  if 0 ≤ e then (num, den * Nat.pow base e.toNat) else (num * Nat.pow base (-e).toNat, den)

/-- The absolute value of a finite number as a fraction. -/
def magnitude (x : Float) : Nat × Nat := scaleDown 2 (significand x) 1 (-exponent x)

/-- The integer nearest to `num / den`; a tie goes to the even one. -/
def roundEven (num den : Nat) : Nat :=
  let q := num / den
  let r := num % den
  if den < 2 * r ∨ (den = 2 * r ∧ q % 2 = 1) then q + 1 else q

/-- The exponent of the greatest power of two that is at most `num / den`. -/
def binaryOrder (num den : Nat) : Int :=
  let d : Int := (Nat.log2 num : Int) - Nat.log2 den
  let (n, m) := scaleDown 2 num den d
  if m ≤ n then d else d - 1

def infinityBits : Nat := 2047 * Nat.pow 2 52

/-- The bits of the double nearest to the positive fraction `num / den`. The exponent leaves 53 bits
of the quotient, or fewer below the normal range; a quotient that rounds up to the next power of two
carries into the exponent bits, which is that power's own encoding. -/
def nearestBits (num den : Nat) : Nat :=
  if num = 0 then 0
  else
    let e := max (binaryOrder num den - 52) (-1074)
    let (n, m) := scaleDown 2 num den e
    min infinityBits ((e + 1074).toNat * Nat.pow 2 52 + roundEven n m)

def ofFraction (negative : Bool) (num den : Nat) : Float :=
  Float.ofBits (UInt64.ofNat (nearestBits num den + if negative then Nat.pow 2 63 else 0))

def ofNat (n : Nat) : Float := ofFraction false n 1

def infinity : Float := Float.ofBits (UInt64.ofNat infinityBits)

def nan : Float := Float.ofBits 0x7ff8000000000000

def negate (x : Float) : Float := -x

/-- The integer nearest to the absolute value; a half goes up. -/
def roundedMagnitude (x : Float) : Nat :=
  let (n, d) := magnitude x
  (2 * n + d) / (2 * d)

/-- The nearest whole number, halves going away from zero. -/
def round (x : Float) : Float :=
  if isFinite x then ofFraction (isNegative x) (roundedMagnitude x) 1 else x

/-- The nearest integer in `0 ≤ n < bound`, halves going away from zero: a number outside goes to
the nearer end, and a number that is none goes to zero. -/
def toBounded (bound : Nat) (x : Float) : Nat :=
  if isNaN x || isNegative x then 0
  else if isFinite x then min (roundedMagnitude x) (bound - 1)
  else bound - 1

/-- The place of a number in the order of all numbers; the two zeros share a place. -/
def place (x : Float) : Int :=
  if isNegative x then -((x.toBits.toNat - Nat.pow 2 63 : Nat) : Int) else x.toBits.toNat

/-- The larger of two numbers; a value that is not a number gives way to the other. -/
def larger (x y : Float) : Float :=
  if isNaN x then y
  else if isNaN y then x
  else if place x < place y then y else x

end LabelFleet.Binary64
