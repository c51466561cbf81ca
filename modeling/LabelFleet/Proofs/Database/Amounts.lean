import LabelFleet.Database.Numeric
import LabelFleet.Json.Text
import LabelFleet.Proofs.Number.FewDigits

/-! What the cells of exact decimals show. A cell is always a double, whose text is at most a few
roundings away from the decimal; with few digits it is the decimal. Decimals with more digits may
share a cell. -/
namespace LabelFleet

namespace Digits

theorem toNat_padded (width n : ℕ) : toNat (padded width n) = n := by
  rw [padded, toNat_append, toNat_replicate, Nat.zero_mul, Nat.zero_add, toNat_ofNat]

theorem length_padded {width n : ℕ} (hwidth : 0 < width) (h : n < 10 ^ width) :
    (padded width n).length = width := by
  obtain ⟨k, rfl⟩ := Nat.exists_eq_add_one_of_ne_zero hwidth.ne'
  have hle := length_ofNat_le h
  rw [padded, List.length_append, List.length_replicate]
  omega

theorem isDigit_of_mem_padded {width n : ℕ} {c : Char} (h : c ∈ padded width n) :
    c.isDigit = true :=
  (List.mem_append.mp h).elim Numeral.isDigit_of_mem_replicate isDigit_of_mem_ofNat

end Digits

namespace Number

/-- The number that is written in a text, if it is one. -/
def value? (s : List Char) : Option ℚ :=
  (readMagnitude (Digits.splitSign s).2).map fun d =>
    if (Digits.splitSign s).1 then -d.value else d.value

theorem value?_numeral {n : Numeral} (h : n.Proper) (negative : Bool) :
    value? (if negative then '-' :: n.text else n.text) =
      some (if negative then -n.decimal.value else n.decimal.value) := by
  rw [value?, splitSign_text h, Numeral.readMagnitude_text h]
  rfl

theorem value?_text {x : Float} (h : Binary64.isFinite x = true) :
    value? (Style.json.text x) = some (if Binary64.isNegative x then -Decimal.written .toEven x
      else Decimal.written .toEven x) := by
  obtain ⟨n, hproper, htext, hvalue, -⟩ := Style.json.exists_numeral h
  rw [htext, value?_numeral hproper, hvalue]
  rfl

end Number

/-- The number that a cell shows: what stands in a text, and any other value as it is written. -/
def Json.shown? : Json → Option ℚ
  | .string s => Number.value? s.toList
  | cell => Number.value? cell.compact

theorem Json.shown?_double (x : Float) :
    shown? (.double x) = Number.value? (Style.json.text x) := rfl

namespace Decimal

open Binary64 (isFinite magnitudeBits Within)

variable {x y : Float}

theorem written_congr (tie : Tie) (hx : isFinite x = true) (hy : isFinite y = true)
    (h : magnitudeBits x = magnitudeBits y) : written tie x = written tie y := by
  have habsolute : Binary64.absolute x = Binary64.absolute y := by
    apply Binary64.eq_of_bits
    · rw [Binary64.isNegative_absolute hx, Binary64.isNegative_absolute hy]
    · rw [Binary64.magnitudeBits_absolute hx, Binary64.magnitudeBits_absolute hy, h]
  simp only [written, Binary64.significand_eq_zero_iff, h, habsolute]

/-- Writing a double is no worse than two roundings. -/
theorem within_written (tie : Tie) (hx : isFinite x = true)
    (hlarge : 2 ^ (-1021 : ℤ) ≤ Binary64.value x) :
    Within 2 (written tie x) (Binary64.value x) := by
  have hnear := Binary64.abs_value_sub_le hx hlarge (roundBits_written tie hx)
  have hupper := le_abs_self (Binary64.value x - written tie x)
  have hlower := neg_le_abs (Binary64.value x - written tie x)
  have hvalue := Binary64.value_nonneg x
  have hstep : Binary64.step ≤ Binary64.step ^ 2 := by norm_num [Binary64.step]
  constructor
  · calc
      written tie x ≤ Binary64.value x * Binary64.step := by
        rw [Binary64.step]
        linarith
      _ ≤ Binary64.value x * Binary64.step ^ 2 := mul_le_mul_of_nonneg_left hstep hvalue
  · have hpart : Binary64.value x * (1 - 1 / 9007199254740992) ≤ written tie x := by linarith
    have hone : 1 ≤ (1 - 1 / 9007199254740992) * Binary64.step ^ 2 := by norm_num [Binary64.step]
    calc
      Binary64.value x ≤ Binary64.value x * ((1 - 1 / 9007199254740992) * Binary64.step ^ 2) :=
        le_mul_of_one_le_right hvalue hone
      _ = Binary64.value x * (1 - 1 / 9007199254740992) * Binary64.step ^ 2 := by ring
      _ ≤ written tie x * Binary64.step ^ 2 :=
        mul_le_mul_of_nonneg_right hpart (pow_pos Binary64.step_pos 2).le

end Decimal

namespace Database.Numeric

open Binary64 (isFinite isNegative roundBits magnitudeBits rounded Within Near)

/-- The absolute value. -/
def amount (d : Numeric) : ℚ := d.mantissa / d.unit

def value (d : Numeric) : ℚ := if d.negative then -d.amount else d.amount

/-- A whole number of at most 53 bits, or at most fifteen digits with no more than 22 of them after
the point. -/
def Short (d : Numeric) : Prop :=
  d.mantissa % d.unit = 0 ∧ d.mantissa / d.unit < 9007199254740992 ∨
    d.mantissa < 10 ^ 15 ∧ d.scale ≤ 22

variable {d : Numeric}

/-! ### The parts of a decimal -/

theorem unit_pos (d : Numeric) : 0 < d.unit := Nat.pow_pos (by decide)

theorem unit_le (d : Numeric) : d.unit ≤ 10 ^ 28 := Nat.pow_le_pow_right (by decide) d.scale_le

theorem mantissa_le (d : Numeric) : d.mantissa ≤ 10 ^ 29 :=
  d.mantissa_lt.le.trans (by decide)

theorem amount_nonneg (d : Numeric) : 0 ≤ d.amount :=
  div_nonneg (Nat.cast_nonneg _) (Nat.cast_nonneg _)

theorem abs_value (d : Numeric) : |d.value| = d.amount := by
  rw [value]
  split_ifs
  · rw [abs_neg, abs_of_nonneg d.amount_nonneg]
  · rw [abs_of_nonneg d.amount_nonneg]

theorem amount_of_whole (h : d.mantissa % d.unit = 0) :
    d.amount = (d.mantissa / d.unit : ℕ) :=
  (Nat.cast_div_charZero (Nat.dvd_of_mod_eq_zero h)).symm

theorem amount_eq_add (d : Numeric) :
    d.amount = (d.mantissa / d.unit : ℕ) + (d.mantissa % d.unit : ℕ) / (d.unit : ℚ) := by
  have hunit : (d.unit : ℚ) ≠ 0 := Nat.cast_ne_zero.mpr d.unit_pos.ne'
  rw [amount, div_eq_iff hunit, add_mul, div_mul_cancel₀ _ hunit]
  exact_mod_cast (Nat.div_add_mod' d.mantissa d.unit).symm

theorem le_amount (h : 0 < d.mantissa) : 1 / 10 ^ 30 ≤ d.amount := by
  have hone : (1 : ℚ) ≤ d.mantissa := by exact_mod_cast h
  have hunit : (d.unit : ℚ) ≤ 10 ^ 30 := by exact_mod_cast d.unit_le.trans (by decide)
  exact div_le_div₀ (Nat.cast_nonneg _) hone (Nat.cast_pos.mpr d.unit_pos) hunit

theorem amount_le (d : Numeric) : d.amount ≤ 10 ^ 29 := by
  have hone : (1 : ℚ) ≤ d.unit := by exact_mod_cast d.unit_pos
  have hmantissa : (d.mantissa : ℚ) ≤ 10 ^ 29 := by exact_mod_cast d.mantissa_le
  exact (div_le_self (Nat.cast_nonneg _) hone).trans hmantissa

/-! ### The text -/

/-- The numeral that a decimal is written as. -/
def numeral (d : Numeric) : Numeral where
  whole := Digits.ofNat (d.mantissa / d.unit)
  fraction := if d.scale = 0 then none else some (Digits.padded d.scale (d.mantissa % d.unit))
  power := none

theorem length_fraction (d : Numeric) : (d.numeral.fraction.getD []).length = d.scale := by
  rw [numeral]
  split_ifs with h
  · exact h.symm
  · exact Digits.length_padded (Nat.pos_of_ne_zero h) (Nat.mod_lt _ d.unit_pos)

theorem proper_numeral (d : Numeric) : d.numeral.Proper := by
  have hwhole := Numeral.proper_ofNat (d.mantissa / d.unit)
  have hlength := d.length_fraction
  refine ⟨hwhole.whole_ne_nil, hwhole.isDigit_whole, hwhole.leading, ?_, ?_⟩
  · intro hnil
    rw [hnil] at hlength
    have hscale : d.scale = 0 := hlength.symm
    simp [numeral, hscale] at hnil
  · intro c hc
    rw [numeral] at hc
    split_ifs at hc
    · contradiction
    · exact Digits.isDigit_of_mem_padded hc

theorem value_numeral (d : Numeric) : d.numeral.decimal.value = d.amount := by
  have hdigits : Digits.toNat (d.numeral.whole ++ d.numeral.fraction.getD []) = d.mantissa := by
    have hfraction : Digits.toNat (d.numeral.fraction.getD []) = d.mantissa % d.unit := by
      rw [numeral]
      split_ifs with h
      · rw [unit, h, Nat.pow_eq, pow_zero, Nat.mod_one]
        rfl
      · exact Digits.toNat_padded _ _
    rw [Digits.toNat_append, hfraction, length_fraction, numeral, Digits.toNat_ofNat]
    exact Nat.div_add_mod' d.mantissa d.unit
  rw [Decimal.value, Numeral.decimal, hdigits, length_fraction, amount, unit]
  simp [numeral, zpow_neg, div_eq_mul_inv]

/-- The text of a decimal shows it exactly. -/
theorem shown?_text (d : Numeric) : Json.shown? (.string d.text) = some d.value := by
  have htext : d.text.toList =
      if d.negative then '-' :: d.numeral.text else d.numeral.text := by
    rw [text, Numeral.text, numeral]
    by_cases hscale : d.scale = 0 <;> cases d.negative <;> simp [hscale]
  rw [Json.shown?, htext, Number.value?_numeral d.proper_numeral, value_numeral]
  rfl

/-! ### The computed double -/

/-- The powers of ten that occur are the nearest doubles, although they are multiplied up. -/
theorem power_eq {s : ℕ} (hs : s ≤ 28) : power 1 10 s = Binary64.ofNat (Nat.pow 10 s) := by
  have hall : ∀ s ≤ 28, (power 1 10 s).toBits = (Binary64.ofNat (Nat.pow 10 s)).toBits := by
    decide +kernel
  exact Binary64.eq_of_toBits_eq (hall s hs)

theorem magnitude_of_whole (h : d.mantissa % d.unit = 0) :
    d.magnitude = Binary64.ofNat (d.mantissa / d.unit) := if_pos h

/-- The sum of the whole part and the fraction, moved by the scale. -/
def scaledSum (d : Numeric) : Float :=
  (Binary64.ofNat (d.mantissa / d.unit) +
    Binary64.ofNat (d.mantissa % d.unit) / Binary64.ofNat d.unit) * Binary64.ofNat d.unit

theorem magnitude_of_fraction (h : d.mantissa % d.unit ≠ 0) :
    d.magnitude = Binary64.round d.scaledSum / Binary64.ofNat d.unit := by
  have hpower : power 1 10 d.scale = Binary64.ofNat d.unit := power_eq d.scale_le
  rw [magnitude, if_neg h, hpower]
  rfl

/-- The moved sum is near to the digits, and the more so if all parts are exact. -/
theorem near_scaledSum {j : ℕ} (hj : j ≤ 1) (hfraction : d.mantissa % d.unit ≠ 0)
    (hwhole : Near j (Binary64.ofNat (d.mantissa / d.unit)) (d.mantissa / d.unit : ℕ))
    (hpart : Near j (Binary64.ofNat (d.mantissa % d.unit)) (d.mantissa % d.unit : ℕ))
    (hunit : Near j (Binary64.ofNat d.unit) d.unit) : Near (3 * j + 3) d.scaledSum d.mantissa := by
  have hpos : 0 < d.mantissa := Nat.pos_of_ne_zero fun hzero => hfraction (by simp [hzero])
  have hunitPos : (0 : ℚ) < d.unit := Nat.cast_pos.mpr d.unit_pos
  have hunitLe : (d.unit : ℚ) ≤ 10 ^ 30 := by exact_mod_cast d.unit_le.trans (by decide)
  have hone : (1 : ℚ) ≤ d.mantissa := by exact_mod_cast hpos
  have hmantissaLe : (d.mantissa : ℚ) ≤ 10 ^ 29 := by exact_mod_cast d.mantissa_le
  have hpartOne : (1 : ℚ) ≤ (d.mantissa % d.unit : ℕ) := by
    exact_mod_cast Nat.pos_of_ne_zero hfraction
  have hquotient : Near (2 * j + 1) (Binary64.ofNat (d.mantissa % d.unit) / Binary64.ofNat d.unit)
      ((d.mantissa % d.unit : ℕ) / (d.unit : ℚ)) := by
    have hlow : 1 / 10 ^ 30 ≤ ((d.mantissa % d.unit : ℕ) : ℚ) / d.unit :=
      div_le_div₀ (Nat.cast_nonneg _) hpartOne hunitPos hunitLe
    have hhigh : ((d.mantissa % d.unit : ℕ) : ℚ) / d.unit ≤ 1 :=
      (div_le_one hunitPos).mpr (by exact_mod_cast (Nat.mod_lt _ d.unit_pos).le)
    exact (hpart.div hunit (Nat.cast_nonneg _) hunitPos (by omega) hlow
      (hhigh.trans (by norm_num))).mono (by omega) (by positivity)
  have hsum : Near (2 * j + 2) (Binary64.ofNat (d.mantissa / d.unit) +
      Binary64.ofNat (d.mantissa % d.unit) / Binary64.ofNat d.unit) d.amount := by
    have hlow := le_amount hpos
    have hhigh := d.amount_le
    rw [amount_eq_add] at hlow hhigh ⊢
    exact (hwhole.mono (by omega) (Nat.cast_nonneg _)).add hquotient (by omega)
      hlow (hhigh.trans (by norm_num))
  have hproduct : d.amount * d.unit = d.mantissa := div_mul_cancel₀ _ hunitPos.ne'
  have hmoved := hsum.mul hunit d.amount_nonneg hunitPos.le (by omega)
    (hproduct.symm ▸ (by norm_num : (1 : ℚ) / 10 ^ 30 ≤ 1).trans hone)
    (hproduct.symm ▸ hmantissaLe.trans (by norm_num))
  rw [hproduct] at hmoved
  exact hmoved.mono (by omega) (Nat.cast_nonneg _)

/-- Seventeen roundings at most separate the double from the decimal. -/
theorem near_magnitude (h : 0 < d.mantissa) : Near 17 d.magnitude d.amount := by
  have hmantissaLe : (d.mantissa : ℚ) ≤ 10 ^ 29 := by exact_mod_cast d.mantissa_le
  have hofNat {n : ℕ} (hn : n ≤ d.mantissa) : Near 1 (Binary64.ofNat n) n :=
    Binary64.near_ofNat ((Nat.cast_le.mpr hn).trans (hmantissaLe.trans (by norm_num)))
  have hunitLe : (d.unit : ℚ) ≤ 10 ^ 28 := by exact_mod_cast d.unit_le
  have hunit : Near 1 (Binary64.ofNat d.unit) d.unit :=
    Binary64.near_ofNat (hunitLe.trans (by norm_num))
  by_cases hwhole : d.mantissa % d.unit = 0
  · rw [magnitude_of_whole hwhole, amount_of_whole hwhole]
    exact (hofNat (Nat.div_le_self _ _)).mono (by decide) (Nat.cast_nonneg _)
  · have hsum := near_scaledSum le_rfl hwhole (hofNat (Nat.div_le_self _ _))
      (hofNat (Nat.mod_le _ _)) hunit
    have hround := hsum.round (by decide) h (hmantissaLe.trans (by norm_num))
    rw [magnitude_of_fraction hwhole]
    exact hround.div hunit (Nat.cast_nonneg _) (Nat.cast_pos.mpr d.unit_pos) (by decide)
      (le_amount h) (d.amount_le.trans (by norm_num))

theorem magnitude_of_zero (h : d.mantissa = 0) : d.magnitude = Binary64.ofNat 0 := by
  rw [magnitude_of_whole (by simp [h]), h, Nat.zero_div]

theorem isFinite_magnitude (d : Numeric) : isFinite d.magnitude = true := by
  rcases Nat.eq_zero_or_pos d.mantissa with hzero | hpos
  · rw [magnitude_of_zero hzero]
    exact Json.isFinite_ofNat (by decide)
  · exact (near_magnitude hpos).isFinite

theorem isNegative_magnitude (d : Numeric) : isNegative d.magnitude = false := by
  rcases Nat.eq_zero_or_pos d.mantissa with hzero | hpos
  · rw [magnitude_of_zero hzero, Binary64.ofNat_eq, Binary64.isNegative_rounded]
  · exact (near_magnitude hpos).isNegative

/-- The powers of ten up to the 22nd are doubles. -/
theorem near_unit (hs : d.scale ≤ 22) : Near 0 (Binary64.ofNat d.unit) d.unit := by
  have hcast : (d.unit : ℚ) = 10 ^ d.scale := by
    rw [unit, Nat.pow_eq, Nat.cast_pow, Nat.cast_ofNat]
  have heq : Binary64.ofNat d.unit = Json.powerOfTen d.scale := by
    rw [Json.powerOfTen_eq, Binary64.ofNat_eq, hcast]
  refine ⟨?_, ?_, ?_⟩
  · rw [heq]
    exact (Json.powerOfTen_spec (by omega)).1
  · rw [Binary64.ofNat_eq, Binary64.isNegative_rounded]
  · rw [heq, Json.value_powerOfTen hs, hcast]
    exact Binary64.within_self (by positivity) 0

/-- With few digits the rounding finds them again, and their quotient is the nearest double. -/
theorem magnitude_of_fewDigits (hm : d.mantissa < 10 ^ 15) (hs : d.scale ≤ 22)
    (hfraction : d.mantissa % d.unit ≠ 0) : d.magnitude = rounded false d.amount := by
  have hofNat {n : ℕ} (hn : n ≤ d.mantissa) : Near 0 (Binary64.ofNat n) n :=
    Binary64.near_ofNat_of_lt (by omega)
  have hmantissa := hofNat le_rfl
  have hunit := near_unit hs
  have hsum := near_scaledSum (by decide) hfraction (hofNat (Nat.div_le_self _ _))
    (hofNat (Nat.mod_le _ _)) hunit
  have hsmall : (d.mantissa : ℚ) * (Binary64.step ^ 3 - 1) < 1 / 2 := by
    have hle : (d.mantissa : ℚ) ≤ 10 ^ 15 := by exact_mod_cast hm.le
    calc
      (d.mantissa : ℚ) * (Binary64.step ^ 3 - 1) ≤ 10 ^ 15 * (Binary64.step ^ 3 - 1) :=
        mul_le_mul_of_nonneg_right hle (by norm_num [Binary64.step])
      _ < 1 / 2 := by norm_num [Binary64.step]
  have hround : Binary64.round d.scaledSum = Binary64.ofNat d.mantissa := by
    rw [Binary64.round_eq hsum.isFinite, hsum.isNegative, hsum.roundedMagnitude_eq hsmall,
      Binary64.ofNat_eq]
  have hunitPos := Binary64.value_pos_iff.mp (hunit.within.pos (Nat.cast_pos.mpr d.unit_pos))
  rw [magnitude_of_fraction hfraction, hround,
    Binary64.div_eq hmantissa.isFinite hunit.isFinite hunitPos, hmantissa.value_eq, hunit.value_eq,
    hmantissa.isNegative, hunit.isNegative]
  rfl

/-! ### What a cell shows -/

/-- What is written for the absolute value of a short decimal is that decimal. -/
theorem written_magnitude (h : d.Short) : Decimal.written .toEven d.magnitude = d.amount := by
  have hfinite := d.isFinite_magnitude
  by_cases hwhole : d.mantissa % d.unit = 0
  · have hlt : d.mantissa / d.unit < 9007199254740992 := by
      rcases h with h | h
      · exact h.2
      · exact (Nat.div_le_self _ _).trans_lt (h.1.trans (by decide))
    rw [amount_of_whole hwhole]
    refine Decimal.written_natCast _ hfinite hlt ?_
    rw [magnitude_of_whole hwhole, Binary64.ofNat_eq, Binary64.magnitudeBits_rounded]
  · obtain ⟨hm, hs⟩ := h.resolve_left fun h => hwhole h.1
    have hpos : 0 < d.mantissa := Nat.pos_of_ne_zero fun hzero => hwhole (by simp [hzero])
    have hnear := near_magnitude hpos
    have hamount : d.amount = d.mantissa * 10 ^ (-d.scale : ℤ) := by
      rw [amount, unit, Nat.pow_eq, Nat.cast_pow, Nat.cast_ofNat, zpow_neg, zpow_natCast,
        div_eq_mul_inv]
    rw [hamount]
    have hlarge := hnear.within.two_zpow_le (by decide) (le_amount hpos)
    refine Decimal.written_eq_of_lt _ hfinite hlarge hm ?_
    rw [← hamount, magnitude_of_fewDigits hm hs hwhole, Binary64.magnitudeBits_rounded]

theorem short_of_zero (h : d.mantissa = 0) : d.Short := by
  left
  rw [h, Nat.zero_mod, Nat.zero_div]
  exact ⟨rfl, by decide⟩

/-- What is written for the absolute value is close to it. -/
theorem abs_written_sub_le (d : Numeric) :
    |Decimal.written .toEven d.magnitude - d.amount| ≤ d.amount / 2 ^ 48 := by
  rcases Nat.eq_zero_or_pos d.mantissa with hzero | hpos
  · rw [written_magnitude (short_of_zero hzero), sub_self, abs_zero]
    exact div_nonneg d.amount_nonneg (by norm_num)
  · have hnear := near_magnitude hpos
    have hwithin := (Decimal.within_written .toEven hnear.isFinite
      (hnear.within.two_zpow_le (by decide) (le_amount hpos))).trans hnear.within
    have hstep : Binary64.step ^ (2 + 17) - 1 ≤ 1 / 2 ^ 48 := by norm_num [Binary64.step]
    calc
      |Decimal.written .toEven d.magnitude - d.amount| ≤
          d.amount * (Binary64.step ^ (2 + 17) - 1) := hwithin.abs_sub_le
      _ ≤ d.amount * (1 / 2 ^ 48) := mul_le_mul_of_nonneg_left hstep d.amount_nonneg
      _ = d.amount / 2 ^ 48 := mul_one_div _ _

/-- Only a whole zero drops its sign. -/
theorem toFloat_cases (d : Numeric) : isFinite d.toFloat = true ∧
    magnitudeBits d.toFloat = magnitudeBits d.magnitude ∧
    (isNegative d.toFloat = d.negative ∨ d.mantissa = 0) := by
  have hfinite := d.isFinite_magnitude
  have hpositive := d.isNegative_magnitude
  rw [toFloat]
  split_ifs with h
  · rw [Bool.and_eq_true] at h
    refine ⟨Binary64.isFinite_negate hfinite, ?_, .inl ?_⟩
    · rw [Binary64.negate_eq hfinite, Binary64.magnitudeBits_rounded,
        Binary64.roundBits_value hfinite]
    · rw [Binary64.negate_eq hfinite, Binary64.isNegative_rounded, hpositive, h.1]
      rfl
  · refine ⟨hfinite, rfl, ?_⟩
    rw [hpositive]
    cases hnegative : d.negative with
    | false => exact .inl rfl
    | true =>
      rw [hnegative] at h
      simp at h
      exact .inr h.2

theorem toJson_eq (d : Numeric) : d.toJson = .double d.toFloat :=
  if_pos d.toFloat_cases.1

theorem shown?_toJson (d : Numeric) : d.toJson.shown? =
    some (if d.negative then -Decimal.written .toEven d.magnitude
      else Decimal.written .toEven d.magnitude) := by
  obtain ⟨hfinite, hbits, hsign⟩ := d.toFloat_cases
  have hwritten := Decimal.written_congr .toEven hfinite d.isFinite_magnitude hbits
  rw [toJson_eq, Json.shown?_double, Number.value?_text hfinite, hwritten]
  rcases hsign with hsign | hzero
  · rw [hsign]
  · have hnone : Decimal.written .toEven d.magnitude = 0 := by
      rw [written_magnitude (short_of_zero hzero), amount, hzero, Nat.cast_zero, zero_div]
    simp [hnone]

/-- A cell shows a number close to its decimal. -/
theorem exists_shown (d : Numeric) : ∃ q, d.toJson.shown? = some q ∧
    |q - d.value| ≤ |d.value| / 2 ^ 48 ∧ (d.Short → q = d.value) := by
  refine ⟨_, d.shown?_toJson, ?_, fun hshort => ?_⟩
  · rw [abs_value, value]
    split_ifs
    · rw [neg_sub_neg, abs_sub_comm]
      exact d.abs_written_sub_le
    · exact d.abs_written_sub_le
  · rw [written_magnitude hshort, value]

/-- The double of a whole number is the nearest one. -/
theorem magnitudeBits_toFloat (h : d.mantissa % d.unit = 0) :
    magnitudeBits d.toFloat = roundBits d.amount := by
  rw [d.toFloat_cases.2.1, magnitude_of_whole h, Binary64.ofNat_eq, Binary64.magnitudeBits_rounded,
    amount_of_whole h]

/-- The text of a decimal would show it exactly, but every decimal is shown as a double, and as the
nearest one if it is whole. What the cell shows is off by a part in `2 ^ 48` at most, and by nothing
if the decimal is short. So decimals that share a cell are as close to each other, and short ones
are equal. -/
theorem toJson_shows (d : Numeric) : Json.shown? (.string d.text) = some d.value ∧
    (∃ x, d.toJson = .double x ∧ isFinite x = true ∧
      (d.mantissa % d.unit = 0 → magnitudeBits x = roundBits d.amount)) ∧
    (∃ q, d.toJson.shown? = some q ∧ |q - d.value| ≤ |d.value| / 2 ^ 48 ∧
      (d.Short → q = d.value)) ∧
    ∀ e : Numeric, d.toJson = e.toJson →
      |d.value - e.value| ≤ (|d.value| + |e.value|) / 2 ^ 48 ∧
        (d.Short → e.Short → d.value = e.value) := by
  refine ⟨d.shown?_text, ⟨_, d.toJson_eq, d.toFloat_cases.1, magnitudeBits_toFloat⟩,
    d.exists_shown, ?_⟩
  intro e he
  obtain ⟨q, hq, hclose, hexact⟩ := d.exists_shown
  obtain ⟨r, hr, hclose', hexact'⟩ := e.exists_shown
  obtain rfl : q = r := Option.some_inj.mp (hq.symm.trans (he ▸ hr))
  refine ⟨?_, fun hshort hshort' => (hexact hshort).symm.trans (hexact' hshort')⟩
  calc
    |d.value - e.value| ≤ |d.value - q| + |q - e.value| := abs_sub_le _ _ _
    _ ≤ |d.value| / 2 ^ 48 + |e.value| / 2 ^ 48 := by
      rw [abs_sub_comm d.value]
      exact add_le_add hclose hclose'
    _ = (|d.value| + |e.value|) / 2 ^ 48 := (add_div _ _ _).symm

/-- The bound on whole numbers is sharp: the first one of 54 bits that is no double shares its cell
with the one below it, and shows that one. -/
theorem long_amounts_share_cell : ∃ d e : Numeric, d.value = 9007199254740993 ∧
    e.value = 9007199254740992 ∧ d.toJson = e.toJson ∧
      d.toJson.shown? = some 9007199254740992 := by
  refine ⟨⟨false, 9007199254740993, 0, by decide, by decide⟩,
    ⟨false, 9007199254740992, 0, by decide, by decide⟩, ?_, ?_, ?_, ?_⟩
  · simp [value, amount, unit]
  · simp [value, amount, unit]
  · have hbits : (toFloat ⟨false, 9007199254740993, 0, by decide, by decide⟩).toBits =
        (toFloat ⟨false, 9007199254740992, 0, by decide, by decide⟩).toBits := by
      decide +kernel
    rw [toJson_eq, toJson_eq, Binary64.eq_of_toBits_eq hbits]
  · have htext : Style.json.text (toFloat ⟨false, 9007199254740993, 0, by decide, by decide⟩) =
        "9007199254740992.0".toList := by
      decide +kernel
    have hsign : Digits.splitSign "9007199254740992.0".toList =
        (false, "9007199254740992.0".toList) := by
      decide +kernel
    have hread : Number.readMagnitude "9007199254740992.0".toList =
        some ⟨90071992547409920, -1⟩ := by
      decide +kernel
    rw [toJson_eq, Json.shown?_double, htext, Number.value?, hsign, hread]
    norm_num [Decimal.value]

/-- So is the bound on the places: one digit at the 23rd place is shown with others behind it. -/
example : (toJson ⟨false, 1, 23, by decide, by decide⟩).compact =
    "1.0000000000000001e-23".toList := by
  decide +kernel

end Database.Numeric

end LabelFleet
