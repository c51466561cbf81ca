import LabelFleet.Number.Binary64
import LabelFleet.Number.Digits

/-! Decimal fractions and their doubles. `Decimal.nearest` is the double nearest to a decimal;
`Decimal.shortest` is the decimal with the fewest digits that is read back as the given double,
and of those the nearest to it. -/
namespace LabelFleet

/-- The number `digits * 10 ^ exponent`. -/
structure Decimal where
  digits : Nat
  exponent : Int
deriving DecidableEq, Repr

namespace Decimal

/-- How many digits a number has; zero has none. -/
def length (n : Nat) : Nat := if n = 0 then 0 else (Digits.ofNat n).length

/-- The double nearest to a decimal of the given sign. Below `10 ^ -330` that is zero and from
`10 ^ 310` on infinity, so no larger power of ten is ever formed. -/
def nearest (negative : Bool) (d : Decimal) : Float :=
  let order := (length d.digits : Int) + d.exponent
  if d.digits = 0 ∨ order < -330 then Binary64.ofFraction negative 0 1
  else if 310 < order then Binary64.ofFraction negative (Nat.pow 2 1024) 1
  else
    let (n, m) := Binary64.scaleDown 10 d.digits 1 (-d.exponent)
    Binary64.ofFraction negative n m

/-- Which of two equally near decimals is taken. -/
inductive Tie
  | toEven
  | up
deriving DecidableEq, Repr

/-- The exponent of the greatest power of ten that is at most `num / den`. -/
def order (num den : Nat) : Int :=
  let d : Int := (length num : Int) - length den
  let (n, m) := Binary64.scaleDown 10 num den d
  if m ≤ n then d else d - 1

/-- The decimal is read back as `x`. -/
def readsAs (x : Float) (d : Decimal) : Bool := (nearest false d).toBits == x.toBits

/-- Of the two neighbours of `x = num / den` among the multiples of `10 ^ e`, the nearest one that
is read back as `x`. -/
def onGrid? (tie : Tie) (x : Float) (num den : Nat) (e : Int) : Option Decimal :=
  let (n, m) := Binary64.scaleDown 10 num den e
  let low : Decimal := ⟨n / m, e⟩
  let high : Decimal := ⟨n / m + 1, e⟩
  let r := 2 * (n % m)
  match readsAs x low, readsAs x high with
  | false, false => none
  | true, false => some low
  | false, true => some high
  | true, true =>
    if r < m ∨ (r = m ∧ tie = .toEven ∧ low.digits % 2 = 0) then some low else some high

/-- The same number with no zero at the end of its digits. -/
def normalize (d : Decimal) : Decimal :=
  if d.digits ≠ 0 ∧ d.digits % 10 = 0 then normalize ⟨d.digits / 10, d.exponent + 1⟩ else d
termination_by d.digits
decreasing_by omega

/-- All digits of the finite double `x`. -/
def exact (x : Float) : Decimal :=
  let e := Binary64.exponent x
  if 0 ≤ e then ⟨Binary64.significand x * Nat.pow 2 e.toNat, 0⟩
  else ⟨Binary64.significand x * Nat.pow 5 (-e).toNat, e⟩

/-- The shortest decimal of a positive finite double: grids of one, two, … seventeen digits are
tried in turn. -/
def shortest (tie : Tie) (x : Float) : Decimal :=
  let (num, den) := Binary64.magnitude x
  let top := order num den
  let found := (List.range 17).findSome? fun (i : Nat) => onGrid? tie x num den (top - i)
  normalize (found.getD (exact x))

end Decimal

end LabelFleet
