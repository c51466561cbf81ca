import LabelFleet.Proofs.Json.Scaling

/-! How exact computing with doubles is. A sum of positive doubles is the double nearest to the
exact sum, and so is every product and quotient; a number that is computed in a few steps is a few
roundings away from the exact one. -/
namespace LabelFleet.Binary64

open Float.Model (Format UnpackedFloat totalExponent)

variable {x y : Float} {p q r s t : ℚ} {j k m n : ℕ}

/-! ### Sums -/

theorem sign_eq_positive (h : isNegative x = false) : sign x = .positive := by
  rw [sign, h]
  rfl

/-- A positive number of any exponent is rounded to the nearest double. -/
theorem toNat_pack_round {e : ℤ} (hm : 0 < m) :
    (UnpackedFloat.pack .binary64 (UnpackedFloat.round .binary64 .positive m e)).toNat =
      roundBits (m * 2 ^ e) := by
  have hplace := two_zpow_pos e
  have hpos : (0 : ℚ) < m * 2 ^ e := mul_pos (Nat.cast_pos.mpr hm) hplace
  have htarget := targetExponent_eq le_rfl (by rw [add_mul]; linarith) hpos
    fun hzero => absurd hzero hm.ne'
  generalize hlast : lastPlace ((m : ℚ) * 2 ^ e) = l at htarget
  rw [UnpackedFloat.round, htarget]
  generalize hshift : (e - l).toNat = k
  have hexact : StandsFor (.ofMantissaAndAccuracy (m <<< k) .exact)
      ((m : ℚ) * 2 ^ e / 2 ^ (e - k)) := by
    change (m : ℚ) * 2 ^ e / 2 ^ (e - k) = (m <<< k : ℕ)
    rw [mul_div_assoc, ← zpow_sub₀ (by decide), sub_sub_cancel, zpow_natCast, Nat.shiftLeft_eq]
    push_cast
    ring
  simp only [UnpackedFloat.decreaseExponent, hshift]
  exact (toNat_pack_roundWithAccuracy hexact hpos (by omega)).trans (Nat.zero_add _)

/-- A double without its sign is packed as it was. -/
theorem toNat_pack_significand (hx : isFinite x = true) (hpos : 0 < significand x) :
    (UnpackedFloat.pack .binary64
      (.finite .positive (significand x) (exponent x) hpos)).toNat = roundBits (value x) := by
  have hbits := isFinite_iff.mp hx
  rw [toNat_pack_finite hpos (normalized_significand x), encode_significand, roundBits_value hx,
    Nat.min_eq_right hbits.le]
  exact Nat.zero_add _

/-- Both mantissas are written with the smaller exponent and added. -/
theorem add_finite {d e f : ℤ} (hm : 0 < m) (hn : 0 < n) (hd : d = min e f) :
    UnpackedFloat.add .binary64 (.finite .positive m e hm) (.finite .positive n f hn) =
      UnpackedFloat.round .binary64 .positive (m <<< (e - d).toNat + n <<< (f - d).toNat) d := by
  have hpos : 0 < m <<< (e - d).toNat := by
    rw [Nat.shiftLeft_eq]
    exact Nat.mul_pos hm (Nat.pow_pos (by decide))
  have hsum : UnpackedFloat.Sign.apply .positive (m <<< (e - d).toNat) +
      UnpackedFloat.Sign.apply .positive (n <<< (f - d).toNat) =
        ((m <<< (e - d).toNat + n <<< (f - d).toNat : ℕ) : ℤ) := by
    simp [UnpackedFloat.Sign.apply]
  have hcompare : compare ((m <<< (e - d).toNat + n <<< (f - d).toNat : ℕ) : ℤ) 0 = .gt :=
    compare_gt_iff_gt.mpr (Int.natCast_pos.mpr (Nat.add_pos_left hpos _))
  simp only [UnpackedFloat.add, UnpackedFloat.decreaseExponent, ← hd, hsum,
    UnpackedFloat.normalize, hcompare, Int.toNat_natCast]

/-- The sum of two doubles without a sign is the double nearest to the sum of their values. -/
theorem add_eq (hx : isFinite x = true) (hy : isFinite y = true) (hsx : isNegative x = false)
    (hsy : isNegative y = false) : x + y = rounded false (value x + value y) := by
  apply eq_rounded
  change (UnpackedFloat.pack .binary64
    (UnpackedFloat.add .binary64 x.toModel.unpack y.toModel.unpack)).toNat = _
  by_cases hx₀ : significand x = 0
  · rw [unpack_of_zero hx₀, value_eq_zero hx₀, zero_add, sign_eq_positive hsx]
    by_cases hy₀ : significand y = 0
    · rw [unpack_of_zero hy₀, value_eq_zero hy₀, sign_eq_positive hsy, roundBits_zero]
      exact toNat_pack_zero _
    · rw [unpack_of_isFinite hy hy₀, sign_eq_positive hsy]
      exact (toNat_pack_significand hy _).trans (Nat.zero_add _).symm
  by_cases hy₀ : significand y = 0
  · rw [unpack_of_zero hy₀, unpack_of_isFinite hx hx₀, value_eq_zero hy₀, add_zero,
      sign_eq_positive hsx]
    exact (toNat_pack_significand hx _).trans (Nat.zero_add _).symm
  obtain ⟨d, hd⟩ : ∃ d, d = min (exponent x) (exponent y) := ⟨_, rfl⟩
  have hvalue : value x + value y = (significand x <<< (exponent x - d).toNat +
      significand y <<< (exponent y - d).toNat : ℕ) * 2 ^ d := by
    have hex : exponent x = (exponent x - d).toNat + d := by omega
    have hey : exponent y = (exponent y - d).toNat + d := by omega
    rw [value, value]
    conv_lhs => rw [hex, hey]
    rw [two_zpow_add, two_zpow_add, zpow_natCast, zpow_natCast, Nat.shiftLeft_eq, Nat.shiftLeft_eq]
    push_cast
    ring
  have hpos : 0 < significand x <<< (exponent x - d).toNat +
      significand y <<< (exponent y - d).toNat := by
    rw [Nat.shiftLeft_eq]
    exact Nat.add_pos_left
      (Nat.mul_pos (Nat.pos_of_ne_zero hx₀) (Nat.pow_pos (by decide))) _
  rw [unpack_of_isFinite hx hx₀, unpack_of_isFinite hy hy₀, sign_eq_positive hsx,
    sign_eq_positive hsy, add_finite _ _ hd, hvalue, toNat_pack_round hpos]
  exact (Nat.zero_add _).symm

/-! ### One rounding -/

theorem abs_sub_nearestNat_le (hq : 0 ≤ q) : |(nearestNat q : ℚ) - q| ≤ 1 / 2 := by
  have hlow := Nat.floor_le hq
  have hhigh := Nat.lt_floor_add_one q
  rw [nearestNat, abs_le]
  split_ifs with h
  · rw [Nat.cast_add_one]
    rcases h with h | ⟨h, -⟩ <;> constructor <;> linarith
  · rw [not_or] at h
    constructor <;> linarith [not_lt.mp h.1]

/-- The value of a rounded number is the nearest multiple of its last place. -/
theorem value_rounded_eq {negative : Bool} (hq : 0 < q)
    (hfinite : isFinite (rounded negative q) = true) :
    value (rounded negative q) = nearestNat (q / 2 ^ lastPlace q) * 2 ^ lastPlace q := by
  obtain ⟨a, e, ha, hlow, hhigh⟩ := exists_normalized hq
  have hmin := Normalized.le_nearestNat hlow
  have hmax := Normalized.nearestNat_le hhigh
  have hupper := ha.upper
  have hlower := ha.lower
  have hbits := magnitudeBits_rounded negative q
  rw [isFinite_rounded_iff] at hfinite
  rw [ha.roundBits_eq hq hlow hhigh] at hbits hfinite
  rw [min_eq_right (min_lt_iff.mp hfinite |>.resolve_left (lt_irrefl _)).le] at hbits
  rw [ha.lastPlace_eq hq hlow hhigh]
  generalize nearestNat (q / 2 ^ e) = b at *
  rcases (show b ≤ 9007199254740992 by omega).lt_or_eq with hlt | rfl
  · exact value_of_encode ⟨hlower, hlt, fun h => ha.least (by omega)⟩ hbits
  · have hcode : encode 9007199254740992 e = encode 4503599627370496 (e + 1) := by
      rw [encode, encode]
      omega
    rw [value_of_encode ⟨by omega, by decide, fun h => absurd h (by decide)⟩ (hbits.trans hcode),
      two_zpow_add, zpow_one]
    push_cast
    ring

/-- In the normal range a number is off by at most half a place, which is a small part of it. -/
theorem abs_value_rounded_sub_le {negative : Bool} (hq : 2 ^ (-1022 : ℤ) ≤ q)
    (hfinite : isFinite (rounded negative q) = true) :
    |value (rounded negative q) - q| * 9007199254740992 ≤ q ∧
      |value (rounded negative q) - q| * 9007199254740992 ≤ value (rounded negative q) := by
  have hpos : 0 < q := (two_zpow_pos _).trans_le hq
  obtain ⟨a, e, ha, hlow, hhigh⟩ := exists_normalized hpos
  have hplace := two_zpow_pos e
  have hmin : (a : ℚ) ≤ nearestNat (q / 2 ^ e) := by exact_mod_cast Normalized.le_nearestNat hlow
  have hnormal : (4503599627370496 : ℚ) ≤ a := by
    by_contra hsmall
    have hsmall : a < 4503599627370496 := by exact_mod_cast not_le.mp hsmall
    have he := ha.least hsmall
    have hbound : ((a : ℚ) + 1) * 2 ^ e ≤ 4503599627370496 * 2 ^ e :=
      mul_le_mul_of_nonneg_right (by exact_mod_cast hsmall) hplace.le
    have hsplit : (2 : ℚ) ^ (-1022 : ℤ) = 4503599627370496 * 2 ^ e := by
      rw [he, show (-1022 : ℤ) = 52 + -1074 from rfl, two_zpow_add]
      norm_num
    linarith
  have hvalue := value_rounded_eq hpos hfinite
  rw [ha.lastPlace_eq hpos hlow hhigh] at hvalue
  have herror : |value (rounded negative q) - q| ≤ 1 / 2 * 2 ^ e := by
    have hsub : value (rounded negative q) - q =
        (nearestNat (q / 2 ^ e) - q / 2 ^ e) * 2 ^ e := by
      rw [hvalue, sub_mul, div_mul_cancel₀ _ hplace.ne']
    rw [hsub, abs_mul, abs_of_pos hplace]
    exact mul_le_mul_of_nonneg_right (abs_sub_nearestNat_le (div_pos hpos hplace).le) hplace.le
  have hq' : 4503599627370496 * 2 ^ e ≤ q :=
    (mul_le_mul_of_nonneg_right hnormal hplace.le).trans hlow
  have hvalue' : 4503599627370496 * 2 ^ e ≤ value (rounded negative q) := by
    rw [hvalue]
    exact mul_le_mul_of_nonneg_right (hnormal.trans hmin) hplace.le
  constructor <;> linarith

/-- What is rounded to a double is close to it. -/
theorem abs_value_sub_le (hx : isFinite x = true) (hlarge : 2 ^ (-1021 : ℤ) ≤ value x)
    (hq : roundBits q = magnitudeBits x) : |value x - q| * 9007199254740992 ≤ value x := by
  have hfinite : isFinite (rounded false q) = true := by
    rw [isFinite_iff] at hx
    rwa [isFinite_rounded_iff, hq]
  have hvalue : value (rounded false q) = value x := value_congr (by rw [magnitudeBits_rounded, hq])
  rw [← hvalue] at hlarge ⊢
  refine (abs_value_rounded_sub_le ?_ hfinite).2
  by_contra hsmall
  have hleast : value (rounded false ((1 : ℕ) * 2 ^ (-1022 : ℤ))) = (1 : ℕ) * 2 ^ (-1022 : ℤ) ∧
      isFinite (rounded false ((1 : ℕ) * 2 ^ (-1022 : ℤ))) = true :=
    value_rounded (by decide) (by decide) (by decide)
  rw [Nat.cast_one, one_mul] at hleast
  obtain ⟨hexact, hfinite'⟩ := hleast
  have hle := (value_rounded_mono (s := false) (not_le.mp hsmall).le hfinite').2
  rw [hexact] at hle
  have hpow : (2 : ℚ) ^ (-1022 : ℤ) < 2 ^ (-1021 : ℤ) := zpow_lt_zpow_right₀ (by decide) (by decide)
  exact absurd (hlarge.trans hle) (not_le.mpr hpow)

/-! ### Several roundings -/

/-- What one rounding may add to a number, or take away from it, as a factor. -/
def step : ℚ := 1 + 1 / 9007199254740992

/-- Two numbers are at most `k` roundings apart. -/
def Within (k : ℕ) (p q : ℚ) : Prop := p ≤ q * step ^ k ∧ q ≤ p * step ^ k

theorem one_le_step : 1 ≤ step := by norm_num [step]

theorem step_pos : 0 < step := zero_lt_one.trans_le one_le_step

theorem within_self (hq : 0 ≤ q) (k : ℕ) : Within k q q := by
  have hle := mul_le_mul_of_nonneg_left (one_le_pow₀ one_le_step (n := k)) hq
  rw [mul_one] at hle
  exact ⟨hle, hle⟩

theorem Within.trans (h : Within j p q) (h' : Within k q r) : Within (j + k) p r := by
  have hj := (pow_pos step_pos j).le
  have hk := (pow_pos step_pos k).le
  constructor
  · calc
      p ≤ q * step ^ j := h.1
      _ ≤ r * step ^ k * step ^ j := mul_le_mul_of_nonneg_right h'.1 hj
      _ = r * step ^ (j + k) := by rw [pow_add]; ring
  · calc
      r ≤ q * step ^ k := h'.2
      _ ≤ p * step ^ j * step ^ k := mul_le_mul_of_nonneg_right h.2 hk
      _ = p * step ^ (j + k) := by rw [pow_add]; ring

theorem Within.mul (h : Within j p q) (h' : Within k r s) (hp : 0 ≤ p) (hq : 0 ≤ q) (hr : 0 ≤ r)
    (hs : 0 ≤ s) : Within (j + k) (p * r) (q * s) := by
  have hj := (pow_pos step_pos j).le
  have hk := (pow_pos step_pos k).le
  constructor
  · calc
      p * r ≤ q * step ^ j * (s * step ^ k) :=
        mul_le_mul h.1 h'.1 hr (mul_nonneg hq hj)
      _ = q * s * step ^ (j + k) := by rw [pow_add]; ring
  · calc
      q * s ≤ p * step ^ j * (r * step ^ k) :=
        mul_le_mul h.2 h'.2 hs (mul_nonneg hp hj)
      _ = p * r * step ^ (j + k) := by rw [pow_add]; ring

theorem Within.inv (h : Within k p q) (hp : 0 < p) (hq : 0 < q) : Within k p⁻¹ q⁻¹ := by
  have hinv {a b : ℚ} (ha : 0 < a) (hb : 0 < b) (hle : b ≤ a * step ^ k) :
      a⁻¹ ≤ b⁻¹ * step ^ k := by
    rw [inv_eq_one_div, inv_mul_eq_div, div_le_div_iff₀ ha hb, one_mul, mul_comm]
    exact hle
  exact ⟨hinv hp hq h.2, hinv hq hp h.1⟩

theorem Within.div (h : Within j p q) (h' : Within k r s) (hp : 0 ≤ p) (hq : 0 ≤ q) (hr : 0 < r)
    (hs : 0 < s) : Within (j + k) (p / r) (q / s) := by
  rw [div_eq_mul_inv, div_eq_mul_inv]
  exact h.mul (h'.inv hr hs) hp hq (inv_pos.mpr hr).le (inv_pos.mpr hs).le

theorem Within.add (h : Within j p q) (h' : Within j r s) : Within j (p + r) (q + s) := by
  constructor
  · rw [add_mul]
    exact add_le_add h.1 h'.1
  · rw [add_mul]
    exact add_le_add h.2 h'.2

theorem Within.mono (h : Within j p q) (hle : j ≤ k) (hp : 0 ≤ p) (hq : 0 ≤ q) : Within k p q := by
  have hpow := pow_le_pow_right₀ one_le_step hle
  exact ⟨h.1.trans (mul_le_mul_of_nonneg_left hpow hq),
    h.2.trans (mul_le_mul_of_nonneg_left hpow hp)⟩

theorem Within.abs_sub_le (h : Within k p q) : |p - q| ≤ q * (step ^ k - 1) := by
  have hstep : 0 ≤ step ^ k - 1 := sub_nonneg.mpr (one_le_pow₀ one_le_step)
  have hle := h.1
  have hle' := h.2
  rcases le_total p q with hpq | hqp
  · have := mul_le_mul_of_nonneg_right hpq hstep
    rw [abs_of_nonpos (sub_nonpos.mpr hpq)]
    linarith
  · rw [abs_of_nonneg (sub_nonneg.mpr hqp)]
    linarith

theorem within_rounded {negative : Bool} (hq : 2 ^ (-1022 : ℤ) ≤ q)
    (hfinite : isFinite (rounded negative q) = true) :
    Within 1 (value (rounded negative q)) q := by
  obtain ⟨hleft, hright⟩ := abs_value_rounded_sub_le hq hfinite
  have hupper := le_abs_self (value (rounded negative q) - q)
  have hlower := neg_le_abs (value (rounded negative q) - q)
  rw [Within, pow_one, step]
  constructor <;> linarith

theorem step_pow_le (hk : k ≤ 30) : step ^ k ≤ 2 :=
  (pow_le_pow_right₀ one_le_step hk).trans (by norm_num [step])

theorem Within.pos (h : Within k p q) (hq : 0 < q) : 0 < p := by
  by_contra hneg
  have hle := mul_nonpos_of_nonpos_of_nonneg (not_lt.mp hneg) (pow_pos step_pos k).le
  exact absurd (h.2.trans hle) (not_le.mpr hq)

theorem Within.two_zpow_le (h : Within k p q) (hk : k ≤ 30) (hlow : 1 / 10 ^ 30 ≤ q) :
    2 ^ (-1021 : ℤ) ≤ p := by
  have hp := h.pos (lt_of_lt_of_le (by positivity) hlow)
  have hlower : 1 / 10 ^ 30 ≤ p * 2 :=
    hlow.trans (h.2.trans (mul_le_mul_of_nonneg_left (step_pow_le hk) hp.le))
  calc
    (2 : ℚ) ^ (-1021 : ℤ) ≤ 2 ^ (-110 : ℤ) := zpow_le_zpow_right₀ (by decide) (by decide)
    _ ≤ 1 / 10 ^ 30 / 2 := by norm_num
    _ ≤ p := by linarith

/-! ### Whole numbers -/

theorem roundedMagnitude_eq (x : Float) : roundedMagnitude x = ⌊value x + 1 / 2⌋₊ := by
  have hden := magnitude_snd_pos x
  have hden' : ((magnitude x).2 : ℚ) ≠ 0 := Nat.cast_ne_zero.mpr hden.ne'
  have hvalue : value x + 1 / 2 =
      ((2 * (magnitude x).1 + (magnitude x).2 : ℕ) : ℚ) / (2 * (magnitude x).2 : ℕ) := by
    rw [← magnitude_eq]
    push_cast
    field_simp
  rw [hvalue, Nat.floor_div_eq_div]
  rfl

theorem round_eq (hx : isFinite x = true) :
    round x = rounded (isNegative x) (roundedMagnitude x) := by
  rw [round, if_pos hx, ofFraction_eq (by decide), Nat.cast_one, div_one]

theorem roundedMagnitude_of_near (h : |value x - n| < 1 / 2) : roundedMagnitude x = n := by
  rw [abs_lt] at h
  rw [roundedMagnitude_eq, Nat.floor_eq_iff (add_nonneg (value_nonneg x) (by norm_num))]
  constructor <;> linarith [h.1, h.2]

theorem within_roundedMagnitude (h : 562949953421312 ≤ value x) :
    Within 8 (roundedMagnitude x) (value x) := by
  have hlow := Nat.floor_le (add_nonneg (value_nonneg x) (by norm_num : (0 : ℚ) ≤ 1 / 2))
  have hhigh := Nat.lt_floor_add_one (value x + 1 / 2)
  have hlarge : ((562949953421312 : ℕ) : ℚ) ≤ ⌊value x + 1 / 2⌋₊ := by
    rw [Nat.cast_le]
    apply Nat.le_floor
    push_cast
    linarith
  rw [← roundedMagnitude_eq] at hlow hhigh hlarge
  push_cast at hlarge
  -- Eight roundings of such a number make up a half.
  have hstep : 1 + 1 / 1125899906842624 ≤ step ^ 8 := by norm_num [step]
  generalize (roundedMagnitude x : ℚ) = a at *
  constructor
  · calc
      a ≤ value x * (1 + 1 / 1125899906842624) := by linarith
      _ ≤ value x * step ^ 8 := mul_le_mul_of_nonneg_left hstep (value_nonneg x)
  · calc
      value x ≤ a * (1 + 1 / 1125899906842624) := by linarith
      _ ≤ a * step ^ 8 := mul_le_mul_of_nonneg_left hstep (by linarith)

/-! ### Computed numbers -/

/-- A double without a sign that is at most `k` roundings away from a number. -/
structure Near (k : ℕ) (x : Float) (q : ℚ) : Prop where
  isFinite : isFinite x = true
  isNegative : isNegative x = false
  within : Within k (value x) q

/-- One rounding more of a number that is neither very small nor very large. -/
theorem near_rounded (h : Within k p q) (hk : k ≤ 30) (hlow : 1 / 10 ^ 30 ≤ q)
    (hhigh : q ≤ 10 ^ 60) : Near (k + 1) (rounded false p) q := by
  have hnormal : 2 ^ (-1022 : ℤ) ≤ p :=
    (zpow_le_zpow_right₀ (by decide) (by decide)).trans (h.two_zpow_le hk hlow)
  have hfinite : isFinite (rounded false p) = true := by
    apply Json.isFinite_rounded_of_le
    calc
      p ≤ q * step ^ k := h.1
      _ ≤ 10 ^ 60 * 2 := mul_le_mul hhigh (step_pow_le hk) (pow_pos step_pos k).le (by positivity)
      _ ≤ 10 ^ 61 := by norm_num
      _ ≤ 10 ^ 308 := pow_le_pow_right₀ (by norm_num) (by decide)
  exact ⟨hfinite, isNegative_rounded false p,
    (Nat.add_comm 1 k) ▸ (within_rounded hnormal hfinite).trans h⟩

namespace Near

theorem mono (h : Near j x q) (hle : j ≤ k) (hq : 0 ≤ q) : Near k x q :=
  ⟨h.isFinite, h.isNegative, h.within.mono hle (value_nonneg x) hq⟩

theorem value_eq (h : Near 0 x q) : value x = q := by
  have hle := h.within.1
  have hge := h.within.2
  rw [pow_zero, mul_one] at hle hge
  exact le_antisymm hle hge

theorem add (hx : Near k x p) (hy : Near k y q) (hk : k ≤ 30) (hlow : 1 / 10 ^ 30 ≤ p + q)
    (hhigh : p + q ≤ 10 ^ 60) : Near (k + 1) (x + y) (p + q) := by
  rw [add_eq hx.isFinite hy.isFinite hx.isNegative hy.isNegative]
  exact near_rounded (hx.within.add hy.within) hk hlow hhigh

theorem mul (hx : Near j x p) (hy : Near k y q) (hp : 0 ≤ p) (hq : 0 ≤ q) (hk : j + k ≤ 30)
    (hlow : 1 / 10 ^ 30 ≤ p * q) (hhigh : p * q ≤ 10 ^ 60) : Near (j + k + 1) (x * y) (p * q) := by
  rw [mul_eq hx.isFinite hy.isFinite, hx.isNegative, hy.isNegative]
  exact near_rounded (hx.within.mul hy.within (value_nonneg x) hp (value_nonneg y) hq) hk hlow hhigh

theorem div (hx : Near j x p) (hy : Near k y q) (hp : 0 ≤ p) (hq : 0 < q) (hk : j + k ≤ 30)
    (hlow : 1 / 10 ^ 30 ≤ p / q) (hhigh : p / q ≤ 10 ^ 60) : Near (j + k + 1) (x / y) (p / q) := by
  have hpos := hy.within.pos hq
  rw [div_eq hx.isFinite hy.isFinite (value_pos_iff.mp hpos), hx.isNegative, hy.isNegative]
  exact near_rounded (hx.within.div hy.within (value_nonneg x) hp hpos hq) hk hlow hhigh

/-- The nearest whole number is the one that was meant, as long as the roundings before do not make
up a half. -/
theorem roundedMagnitude_eq (h : Near k x n) (hsmall : n * (step ^ k - 1) < 1 / 2) :
    roundedMagnitude x = n :=
  roundedMagnitude_of_near (h.within.abs_sub_le.trans_lt hsmall)

theorem round (h : Near k x n) (hk : k ≤ 6) (hn : 0 < n) (hhigh : (n : ℚ) ≤ 10 ^ 60) :
    Near (k + 9) (round x) n := by
  have hone : (1 : ℚ) ≤ n := by exact_mod_cast hn
  have hlow : 1 / 10 ^ 30 ≤ (n : ℚ) := (by norm_num : (1 : ℚ) / 10 ^ 30 ≤ 1).trans hone
  rw [round_eq h.isFinite, h.isNegative]
  rcases lt_or_ge (value x) 562949953421312 with hlt | hge
  · have hstep : step ^ k ≤ 1 + 7 / 9007199254740992 :=
      (pow_le_pow_right₀ one_le_step hk).trans (by norm_num [step])
    have hupper : (n : ℚ) ≤ 562949953421312 * (1 + 7 / 9007199254740992) :=
      h.within.2.trans (mul_le_mul hlt.le hstep (pow_pos step_pos k).le (by norm_num))
    have hsmall : (n : ℚ) * (step ^ k - 1) < 1 / 2 :=
      calc
        (n : ℚ) * (step ^ k - 1) ≤ n * (7 / 9007199254740992) :=
          mul_le_mul_of_nonneg_left (by linarith) (Nat.cast_nonneg n)
        _ < 1 / 2 := by linarith
    rw [h.roundedMagnitude_eq hsmall]
    exact (near_rounded (within_self (Nat.cast_nonneg n) 0) (by decide) hlow hhigh).mono (by omega)
      (Nat.cast_nonneg n)
  · have hwithin := (within_roundedMagnitude hge).trans h.within
    exact (near_rounded hwithin (by omega) hlow hhigh).mono (by omega) (Nat.cast_nonneg n)

end Near

theorem near_ofNat_of_lt (hn : n < 9007199254740992) : Near 0 (ofNat n) n := by
  refine ⟨Json.isFinite_ofNat (by omega), ?_, ?_⟩
  · rw [ofNat_eq, isNegative_rounded]
  · rw [Json.value_ofNat hn]
    exact within_self (Nat.cast_nonneg n) 0

theorem near_ofNat (hn : (n : ℚ) ≤ 10 ^ 60) : Near 1 (ofNat n) n := by
  rcases Nat.eq_zero_or_pos n with rfl | hpos
  · exact (near_ofNat_of_lt (by decide)).mono (by decide) (Nat.cast_nonneg 0)
  · have hone : (1 : ℚ) ≤ n := by exact_mod_cast hpos
    rw [ofNat_eq]
    exact near_rounded (within_self (Nat.cast_nonneg n) 0) (by decide)
      ((by norm_num : (1 : ℚ) / 10 ^ 30 ≤ 1).trans hone) hn

end LabelFleet.Binary64
