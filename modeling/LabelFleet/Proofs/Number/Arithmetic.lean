import LabelFleet.Proofs.Number.Values

/-! Products and quotients of finite doubles are the doubles nearest to the exact ones. -/
namespace LabelFleet.Binary64

open Float.Model (Format UnpackedFloat totalExponent)
open Float.Model.UnpackedFloat (Sign Accuracy ExtendedMantissa)

/-! ### Mantissas with more bits behind them -/

/-- What a mantissa stands for when the bit behind it and the rest are known: the rest is nothing,
or less than a half, or just a half, or more. -/
def StandsFor (m : ExtendedMantissa) (q : ℚ) : Prop :=
  match m.roundBit, m.stickyBit with
  | false, false => q = m.mantissa
  | false, true => m.mantissa < q ∧ q < m.mantissa + 1 / 2
  | true, false => q = m.mantissa + 1 / 2
  | true, true => m.mantissa + 1 / 2 < q ∧ q < m.mantissa + 1

section

variable {m : ExtendedMantissa} {q : ℚ}

theorem StandsFor.bounds (h : StandsFor m q) : (m.mantissa : ℚ) ≤ q ∧ q < m.mantissa + 1 := by
  obtain ⟨n, r, s⟩ := m
  cases r <;> cases s <;> simp only [StandsFor] at h <;> constructor <;> linarith

theorem StandsFor.roundedMantissa_eq (h : StandsFor m q) : m.roundedMantissa = nearestNat q := by
  obtain ⟨n, r, s⟩ := m
  have hfloor : ⌊q⌋₊ = n := by
    have hbounds := h.bounds
    exact (Nat.floor_eq_iff (n.cast_nonneg.trans hbounds.1)).mpr hbounds
  rw [nearestNat, hfloor]
  cases r <;> cases s <;> simp only [StandsFor] at h
  · rw [h, if_neg (by norm_num)]
    rfl
  · rw [if_neg]
    · rfl
    · rintro (h' | ⟨h', -⟩) <;> linarith
  · -- A tie goes to the even mantissa.
    have hhalf : (1 : ℚ) / 2 = q - n := by linarith
    change n + n % 2 = _
    split_ifs with h'
    · rcases h' with h' | ⟨-, hodd⟩
      · linarith
      · rw [hodd]
    · have heven : ¬ n % 2 = 1 := fun hodd => h' (.inr ⟨hhalf, hodd⟩)
      omega
  · rw [if_pos (.inl (by linarith))]
    rfl

/-- Shifting by one place takes in the bit that falls out. -/
theorem StandsFor.shiftRightOne (h : StandsFor m q) : StandsFor m.shiftRightOne (q / 2) := by
  obtain ⟨n, r, s⟩ := m
  have hdiv : (n : ℚ) = 2 * (n / 2 : ℕ) + (n % 2 : ℕ) := by
    exact_mod_cast (Nat.div_add_mod n 2).symm
  rcases Nat.mod_two_eq_zero_or_one n with hn | hn
  · rw [hn, Nat.cast_zero, add_zero] at hdiv
    cases r <;> cases s <;> simp only [StandsFor, ExtendedMantissa.shiftRightOne, hn] at h ⊢ <;>
      simp <;> (try constructor) <;> linarith
  · rw [hn, Nat.cast_one] at hdiv
    cases r <;> cases s <;> simp only [StandsFor, ExtendedMantissa.shiftRightOne, hn] at h ⊢ <;>
      simp <;> (try constructor) <;> linarith

theorem StandsFor.shiftRight (h : StandsFor m q) (k : ℕ) : StandsFor (m >>> k) (q / 2 ^ k) := by
  change StandsFor (k.repeat ExtendedMantissa.shiftRightOne m) _
  induction k with
  | zero => simpa [Nat.repeat] using h
  | succ k ih =>
    rw [pow_succ, ← div_div]
    exact ih.shiftRightOne

end

/-! ### Rounding -/

section

variable {m : ℕ} {e : ℤ} {acc : Accuracy} {q : ℚ}

theorem mantissa_ofMantissaAndAccuracy (m : ℕ) (acc : Accuracy) :
    (ExtendedMantissa.ofMantissaAndAccuracy m acc).mantissa = m := by
  rcases acc with _ | (_ | _ | _) <;> rfl

/-- The exponent for which a mantissa is shifted is that of the last place. -/
theorem targetExponent_eq (hlow : (m : ℚ) * 2 ^ e ≤ q) (hhigh : q < (m + 1) * 2 ^ e)
    (hpos : 0 < q) (he : m = 0 → e ≤ lastPlace q) :
    Format.binary64.targetExponent (totalExponent m e) = lastPlace q := by
  have hbits : Format.binary64.mantissaBits = 53 := rfl
  have hmin : Format.binary64.minExponent = -1074 := rfl
  rw [Format.targetExponent, totalExponent, hbits, hmin]
  rw [lastPlace] at he ⊢
  have hplace := two_zpow_pos e
  rcases Nat.eq_zero_or_pos m with rfl | hm
  · -- The number is below the places of its mantissa.
    replace he := he rfl
    have hlog : Int.log 2 q < e := by
      rw [← Int.lt_zpow_iff_log_lt (by decide) hpos, Nat.cast_ofNat]
      simpa using hhigh
    have hzero : (0 : ℕ).log2 = 0 := by decide
    rw [hzero]
    omega
  · have hlog : Int.log 2 q = m.log2 + e := by
      have h₁ : m.log2 + e ≤ Int.log 2 q := by
        rw [← Int.zpow_le_iff_le_log (by decide) hpos, Nat.cast_ofNat, two_zpow_add, zpow_natCast]
        refine (mul_le_mul_of_nonneg_right ?_ hplace.le).trans hlow
        exact_mod_cast Nat.log2_self_le hm.ne'
      have h₂ : Int.log 2 q < m.log2 + 1 + e := by
        rw [← Int.lt_zpow_iff_log_lt (by decide) hpos, Nat.cast_ofNat, two_zpow_add]
        refine hhigh.trans_le (mul_le_mul_of_nonneg_right ?_ hplace.le)
        exact_mod_cast Nat.lt_log2_self (n := m)
      omega
    omega

/-- A significand that is as long as it may be is not shifted again. -/
theorem shiftToTargetExponent_of_lt {r : ℕ} {t : ℤ} (hr : r < 9007199254740992) (ht : -1074 ≤ t) :
    UnpackedFloat.shiftToTargetExponent .binary64 r t .exact = (⟨r, false, false⟩, t) := by
  have hbits : Format.binary64.mantissaBits = 53 := rfl
  have hmin : Format.binary64.minExponent = -1074 := rfl
  have hlog : r.log2 < 53 := by
    rcases Nat.eq_zero_or_pos r with rfl | hpos
    · decide
    · exact (Nat.log2_lt hpos.ne').mpr hr
  have hshift : (Format.binary64.targetExponent (totalExponent r t) - t).toNat = 0 := by
    rw [Format.targetExponent, totalExponent, hbits, hmin]
    omega
  rw [UnpackedFloat.shiftToTargetExponent, UnpackedFloat.shiftToExponent, hshift]
  simp only [Nat.cast_zero, add_zero]
  rfl

/-- A significand that has grown by one bit is shifted by one place. -/
theorem shiftToTargetExponent_of_eq {t : ℤ} (ht : -1074 ≤ t) :
    UnpackedFloat.shiftToTargetExponent .binary64 9007199254740992 t .exact =
      (⟨4503599627370496, false, false⟩, t + 1) := by
  have hbits : Format.binary64.mantissaBits = 53 := rfl
  have hmin : Format.binary64.minExponent = -1074 := rfl
  have hlog : Nat.log2 9007199254740992 = 53 := by decide
  have hshift :
      (Format.binary64.targetExponent (totalExponent 9007199254740992 t) - t).toNat = 1 := by
    rw [Format.targetExponent, totalExponent, hbits, hmin, hlog]
    omega
  rw [UnpackedFloat.shiftToTargetExponent, UnpackedFloat.shiftToExponent, hshift]
  rfl

/-- A significand of zero is packed as a zero. -/
theorem toNat_pack_shifted {s : Sign} {p : ExtendedMantissa × ℤ} {r : ℕ} {t : ℤ}
    (hp : p = (⟨r, false, false⟩, t)) (h : Normalized r t) :
    (UnpackedFloat.pack .binary64 (if h : p.1.mantissa = 0 then .zero s
      else .finite s p.1.mantissa p.2 (Nat.pos_of_ne_zero h))).toNat =
        signBits s + min infinityBits (encode r t) := by
  subst hp
  split_ifs with hzero
  · have hr : r = 0 := hzero
    have ht := h.least (by omega)
    rw [toNat_pack_zero, hr, ht]
    rfl
  · exact toNat_pack_finite _ h

/-- Rounding a mantissa gives the bits of the nearest double. -/
theorem toNat_pack_roundWithAccuracy {s : Sign}
    (h : StandsFor (.ofMantissaAndAccuracy m acc) (q / 2 ^ e)) (hpos : 0 < q)
    (he : e ≤ lastPlace q) :
    (UnpackedFloat.pack .binary64 (UnpackedFloat.roundWithAccuracy .binary64 s m e acc)).toNat =
      signBits s + roundBits q := by
  have hplace := two_zpow_pos e
  have hbounds := h.bounds
  rw [mantissa_ofMantissaAndAccuracy, le_div_iff₀ hplace, div_lt_iff₀ hplace] at hbounds
  have htarget := targetExponent_eq hbounds.1 hbounds.2 hpos fun _ => he
  -- The first shift reaches the last place.
  obtain ⟨k, hk⟩ : ∃ k : ℕ, lastPlace q = e + k := ⟨(lastPlace q - e).toNat, by omega⟩
  have hshift : UnpackedFloat.shiftToTargetExponent .binary64 m e acc =
      (ExtendedMantissa.ofMantissaAndAccuracy m acc >>> k, lastPlace q) := by
    have hamount : (lastPlace q - e).toNat = k := by omega
    rw [UnpackedFloat.shiftToTargetExponent, htarget, UnpackedFloat.shiftToExponent, hamount, ← hk]
  have hstands : StandsFor (ExtendedMantissa.ofMantissaAndAccuracy m acc >>> k)
      (q / 2 ^ lastPlace q) := by
    rw [hk, two_zpow_add, zpow_natCast, ← div_div]
    exact h.shiftRight k
  obtain ⟨t, f, ht, hlow, hhigh⟩ := exists_normalized hpos
  obtain rfl := ht.lastPlace_eq hpos hlow hhigh
  have hround := hstands.roundedMantissa_eq
  have hmin := Normalized.le_nearestNat hlow
  have hmax := Normalized.nearestNat_le hhigh
  rw [UnpackedFloat.roundWithAccuracy, hshift]
  simp only [hround]
  rw [ht.roundBits_eq hpos hlow hhigh]
  generalize nearestNat (q / 2 ^ lastPlace q) = r at *
  have hupper := ht.upper
  rcases (show r ≤ 9007199254740992 by omega).lt_or_eq with hlt | rfl
  · have hnormal : Normalized r (lastPlace q) := ⟨ht.lower, hlt, fun h => ht.least (by omega)⟩
    exact toNat_pack_shifted (shiftToTargetExponent_of_lt hlt ht.lower) hnormal
  · have hlower := ht.lower
    have hnormal : Normalized 4503599627370496 (lastPlace q + 1) :=
      ⟨by omega, by decide, fun h => absurd h (by decide)⟩
    have hcode : encode 4503599627370496 (lastPlace q + 1) =
        encode 9007199254740992 (lastPlace q) := by
      rw [encode, encode]
      omega
    rw [← hcode]
    exact toNat_pack_shifted (shiftToTargetExponent_of_eq hlower) hnormal

end

/-! ### Zeros and signs -/

section

variable {x y : Float}

theorem unpack_of_zero (h : significand x = 0) : x.toModel.unpack = .zero (sign x) := by
  rw [significand_eq] at h
  have hexponent : exponentBits x = 0 := by
    by_contra hne
    rw [if_neg hne] at h
    omega
  rw [if_pos hexponent] at h
  rw [unpack_eq, ofFields, if_neg (by omega), if_pos hexponent, dif_pos h]

theorem unpack_of_isFinite (h : isFinite x = true) (hzero : significand x ≠ 0) :
    x.toModel.unpack =
      .finite (sign x) (significand x) (exponent x) (Nat.pos_of_ne_zero hzero) := by
  have hs := significand_eq x
  rw [isFinite, bne_iff_ne] at h
  rw [unpack_eq, ofFields, if_neg h]
  by_cases hexponent : exponentBits x = 0
  · rw [if_pos hexponent] at hs
    have he : exponent x = -1074 := by
      rw [exponent, hexponent]
      rfl
    rw [if_pos hexponent, dif_neg (hs ▸ hzero)]
    simp only [hs, he]
  · rw [if_neg hexponent, Nat.add_comm] at hs
    have he : exponent x = exponentBits x - 1075 := by
      rw [exponent]
      omega
    rw [if_neg hexponent]
    simp only [hs, he]

theorem eq_rounded {z : Float} {negative : Bool} {q : ℚ} (h : z.toBits.toNat =
    (if negative then 9223372036854775808 else 0) + roundBits q) : z = rounded negative q := by
  apply eq_of_toBits_eq
  apply UInt64.toNat.inj
  rw [h, toNat_toBits_rounded, Nat.add_comm]

theorem value_eq_zero (h : significand x = 0) : value x = 0 := by
  rw [value, h, Nat.cast_zero, zero_mul]

theorem roundBits_zero : roundBits 0 = 0 := if_pos le_rfl

/-- Negation changes the sign alone. -/
theorem negate_eq (hx : isFinite x = true) : negate x = rounded (!isNegative x) (value x) := by
  have hsign : signBits (-sign x) = if !isNegative x then 9223372036854775808 else 0 := by
    rw [sign]
    cases isNegative x <;> rfl
  apply eq_rounded
  change (UnpackedFloat.pack .binary64 x.toModel.unpack.neg).toNat = _
  rw [← hsign, roundBits_value hx]
  by_cases hzero : significand x = 0
  · rw [unpack_of_zero hzero, significand_eq_zero_iff.mp hzero]
    exact toNat_pack_zero _
  · have hbits := isFinite_iff.mp hx
    rw [unpack_of_isFinite hx hzero, ← Nat.min_eq_right hbits.le, ← encode_significand]
    exact toNat_pack_finite _ (normalized_significand x)

theorem isFinite_negate (hx : isFinite x = true) : isFinite (negate x) = true := by
  rwa [negate_eq hx, isFinite_rounded_iff, roundBits_value hx, ← isFinite_iff]

theorem negate_rounded {q : ℚ} (h : isFinite (rounded false q) = true) :
    negate (rounded false q) = rounded true q := by
  have hbits : roundBits (value (rounded false q)) = roundBits q := by
    rw [roundBits_value h, magnitudeBits_rounded]
  rw [negate_eq h, isNegative_rounded, rounded_congr hbits]
  rfl

/-! ### Products and quotients -/

theorem signBits_mul (x y : Float) : signBits (sign x * sign y) =
    if (isNegative x != isNegative y) then 9223372036854775808 else 0 := by
  rw [sign, sign]
  cases isNegative x <;> cases isNegative y <;> rfl

theorem signBits_div (x y : Float) : signBits (sign x / sign y) =
    if (isNegative x != isNegative y) then 9223372036854775808 else 0 := by
  rw [sign, sign]
  cases isNegative x <;> cases isNegative y <;> rfl

/-- One of two significands has all its bits, or both are below the normal range: the places of
their product go beyond the last one. -/
theorem add_le_lastPlace {m n : ℕ} {e f : ℤ} (hm : Normalized m e) (hn : Normalized n f)
    (hpos : 0 < m * n) : e + f ≤ lastPlace ((m * n : ℕ) * 2 ^ (e + f)) := by
  have hplace := two_zpow_pos (e + f)
  have hq : (0 : ℚ) < (m * n : ℕ) * 2 ^ (e + f) := mul_pos (Nat.cast_pos.mpr hpos) hplace
  rw [lastPlace]
  rcases Nat.lt_or_ge (m * n) 4503599627370496 with hlt | hge
  · have he := hm.least ((Nat.le_mul_of_pos_right m (Nat.pos_of_mul_pos_left hpos)).trans_lt hlt)
    have hf := hn.least ((Nat.le_mul_of_pos_left n (Nat.pos_of_mul_pos_right hpos)).trans_lt hlt)
    omega
  · have hlog : 52 + (e + f) ≤ Int.log 2 ((m * n : ℕ) * 2 ^ (e + f) : ℚ) := by
      rw [← Int.zpow_le_iff_le_log (by decide) hq, Nat.cast_ofNat, two_zpow_add]
      apply mul_le_mul_of_nonneg_right _ hplace.le
      norm_num
      exact_mod_cast hge
    omega

/-- The product of two doubles is the double nearest to the product of their values. -/
theorem mul_eq (hx : isFinite x = true) (hy : isFinite y = true) :
    x * y = rounded (isNegative x != isNegative y) (value x * value y) := by
  apply eq_rounded
  change (UnpackedFloat.pack .binary64
    (UnpackedFloat.mul .binary64 x.toModel.unpack y.toModel.unpack)).toNat = _
  rw [← signBits_mul]
  by_cases hx₀ : significand x = 0
  · rw [unpack_of_zero hx₀, value_eq_zero hx₀, zero_mul, roundBits_zero]
    by_cases hy₀ : significand y = 0
    · rw [unpack_of_zero hy₀]
      exact toNat_pack_zero _
    · rw [unpack_of_isFinite hy hy₀]
      exact toNat_pack_zero _
  by_cases hy₀ : significand y = 0
  · rw [unpack_of_isFinite hx hx₀, unpack_of_zero hy₀, value_eq_zero hy₀, mul_zero, roundBits_zero]
    exact toNat_pack_zero _
  rw [unpack_of_isFinite hx hx₀, unpack_of_isFinite hy hy₀]
  have hpos : 0 < value x * value y :=
    mul_pos (value_pos_iff.mpr hx₀) (value_pos_iff.mpr hy₀)
  have hvalue : value x * value y =
      (significand x * significand y : ℕ) * 2 ^ (exponent x + exponent y) := by
    rw [value, value, two_zpow_add]
    push_cast
    ring
  refine toNat_pack_roundWithAccuracy ?_ hpos ?_
  · rw [hvalue, mul_div_cancel_right₀ _ (two_zpow_pos _).ne']
    rfl
  · rw [hvalue]
    exact add_le_lastPlace (normalized_significand x) (normalized_significand y)
      (Nat.mul_pos (Nat.pos_of_ne_zero hx₀) (Nat.pos_of_ne_zero hy₀))

/-- The remainder of a division tells what stands behind the quotient. -/
theorem standsFor_div (m : ℕ) {n : ℕ} (hn : 0 < n) :
    StandsFor (.ofMantissaAndAccuracy (m / n) (UnpackedFloat.accuracyOfFraction (m % n) n))
      ((m : ℚ) / n) := by
  have hn' : (0 : ℚ) < n := Nat.cast_pos.mpr hn
  have hsplit : (m : ℚ) / n = (m / n : ℕ) + (m % n : ℕ) / n := by
    rw [div_eq_iff hn'.ne', add_mul, div_mul_cancel₀ _ hn'.ne']
    exact_mod_cast (Nat.div_add_mod' m n).symm
  have hlt : ((m % n : ℕ) : ℚ) / n < 1 := by
    rw [div_lt_one hn', Nat.cast_lt]
    exact Nat.mod_lt m hn
  rw [hsplit, UnpackedFloat.accuracyOfFraction]
  split_ifs with hzero
  · rw [hzero, Nat.cast_zero, zero_div, add_zero]
    rfl
  · have hpos : (0 : ℚ) < (m % n : ℕ) / n := by
      have := Nat.pos_of_ne_zero hzero
      positivity
    rcases hcompare : compare (2 * (m % n)) n with _ | _ | _
    · have hhalf : ((m % n : ℕ) : ℚ) / n < 1 / 2 := by
        rw [div_lt_div_iff₀ hn' (by decide), one_mul, mul_comm]
        exact_mod_cast compare_lt_iff_lt.mp hcompare
      change ((m / n : ℕ) : ℚ) < _ ∧ _ < ((m / n : ℕ) : ℚ) + 1 / 2
      exact ⟨by linarith, by linarith⟩
    · have hhalf : ((m % n : ℕ) : ℚ) / n = 1 / 2 := by
        rw [div_eq_div_iff hn'.ne' (by decide), one_mul, mul_comm]
        exact_mod_cast compare_eq_iff_eq.mp hcompare
      rw [hhalf]
      rfl
    · have hhalf : (1 : ℚ) / 2 < (m % n : ℕ) / n := by
        rw [div_lt_div_iff₀ (by decide) hn', one_mul, mul_comm]
        exact_mod_cast compare_gt_iff_gt.mp hcompare
      change ((m / n : ℕ) : ℚ) + 1 / 2 < _ ∧ _ < ((m / n : ℕ) : ℚ) + 1
      exact ⟨by linarith, by linarith⟩

/-- The places of a quotient are computed beyond the last one. -/
theorem min_targetExponent_le {m n : ℕ} {e f : ℤ} (hm : 0 < m) (hn : 0 < n) :
    min (e - f) (Format.binary64.targetExponent (totalExponent m e - totalExponent n f)) ≤
      lastPlace ((m : ℚ) / n * 2 ^ (e - f)) := by
  have hbits : Format.binary64.mantissaBits = 53 := rfl
  have hmin : Format.binary64.minExponent = -1074 := rfl
  have hq : (0 : ℚ) < (m : ℚ) / n * 2 ^ (e - f) := by positivity
  have hlog : (m.log2 : ℤ) - n.log2 - 1 + (e - f) ≤ Int.log 2 ((m : ℚ) / n * 2 ^ (e - f)) := by
    rw [← Int.zpow_le_iff_le_log (by decide) hq, Nat.cast_ofNat, two_zpow_add]
    apply mul_le_mul_of_nonneg_right _ (two_zpow_pos _).le
    have hpow : (2 : ℚ) ^ ((m.log2 : ℤ) - n.log2 - 1) = 2 ^ m.log2 / 2 ^ (n.log2 + 1) := by
      rw [sub_sub, zpow_sub₀ (by decide), zpow_natCast]
      norm_cast
    rw [hpow, div_le_div_iff₀ (by positivity) (by positivity)]
    exact_mod_cast Nat.mul_le_mul (Nat.log2_self_le hm.ne') Nat.lt_log2_self.le
  rw [Format.targetExponent, totalExponent, totalExponent, hbits, hmin, lastPlace]
  omega

/-- The quotient of two doubles is the double nearest to the quotient of their values. -/
theorem div_eq (hx : isFinite x = true) (hy : isFinite y = true) (hy₀ : significand y ≠ 0) :
    x / y = rounded (isNegative x != isNegative y) (value x / value y) := by
  apply eq_rounded
  change (UnpackedFloat.pack .binary64
    (UnpackedFloat.div .binary64 x.toModel.unpack y.toModel.unpack)).toNat = _
  rw [← signBits_div, unpack_of_isFinite hy hy₀]
  by_cases hx₀ : significand x = 0
  · rw [unpack_of_zero hx₀, value_eq_zero hx₀, zero_div, roundBits_zero]
    exact toNat_pack_zero _
  rw [unpack_of_isFinite hx hx₀]
  have hpos : 0 < value x / value y :=
    div_pos (value_pos_iff.mpr hx₀) (value_pos_iff.mpr hy₀)
  have hvalue : value x / value y =
      (significand x : ℚ) / significand y * 2 ^ (exponent x - exponent y) := by
    rw [value, value, zpow_sub₀ (by decide), mul_div_mul_comm]
  have hm := Nat.pos_of_ne_zero hx₀
  have hn := Nat.pos_of_ne_zero hy₀
  have hplaces := min_targetExponent_le (e := exponent x) (f := exponent y) hm hn
  rw [← hvalue] at hplaces
  refine toNat_pack_roundWithAccuracy ?_ hpos hplaces
  have hle := min_le_left (exponent x - exponent y) (Format.binary64.targetExponent
    (totalExponent (significand x) (exponent x) - totalExponent (significand y) (exponent y)))
  generalize min (exponent x - exponent y) (Format.binary64.targetExponent
    (totalExponent (significand x) (exponent x) - totalExponent (significand y) (exponent y))) = t
    at *
  obtain ⟨k, hk⟩ : ∃ k : ℕ, exponent x - exponent y = t + k :=
    ⟨(exponent x - exponent y - t).toNat, by omega⟩
  have hshift : value x / value y / 2 ^ t =
      (significand x <<< (exponent x - exponent y - t).toNat : ℕ) / significand y := by
    have hamount : (exponent x - exponent y - t).toNat = k := by omega
    rw [hamount, hvalue, hk, two_zpow_add, zpow_natCast, Nat.shiftLeft_eq]
    push_cast
    field_simp
  rw [hshift]
  exact standsFor_div _ hn

end

end LabelFleet.Binary64
