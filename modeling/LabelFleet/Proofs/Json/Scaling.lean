import LabelFleet.Json.Lexeme
import LabelFleet.Proofs.Number.Arithmetic
import LabelFleet.Proofs.Number.Shortest

/-! The double that is read for a significand and a power of ten. It is computed from the doubles of
both, so it need not be the nearest one; but it is finite where the nearest one is, and it is the
nearest one as long as both doubles are exact. -/
namespace LabelFleet

namespace Binary64

variable {x y z : Float} {q r : ℚ}

theorem value_rounded_mono {s t : Bool} (hle : q ≤ r) (hr : isFinite (rounded t r) = true) :
    isFinite (rounded s q) = true ∧ value (rounded s q) ≤ value (rounded t r) := by
  have hbits := roundBits_mono hle
  have hq : isFinite (rounded s q) = true := by
    rw [isFinite_rounded_iff] at hr ⊢
    exact hbits.trans_lt hr
  refine ⟨hq, value_le_value hq hr ?_⟩
  rwa [magnitudeBits_rounded, magnitudeBits_rounded]

/-- A product is finite if one of larger factors is. -/
theorem isFinite_mul {x' y' : Float} (hx : isFinite x = true) (hy : isFinite y = true)
    (hx' : isFinite x' = true) (hy' : isFinite y' = true) (hlex : value x ≤ value x')
    (hley : value y ≤ value y') (h : isFinite (x' * y') = true) : isFinite (x * y) = true := by
  rw [mul_eq hx' hy'] at h
  rw [mul_eq hx hy]
  exact (value_rounded_mono (mul_le_mul hlex hley (value_nonneg _) (value_nonneg _)) h).1

/-- Dividing by one or more leaves a number finite. -/
theorem isFinite_div (hx : isFinite x = true) (hy : isFinite y = true) (hone : 1 ≤ value y) :
    isFinite (x / y) = true := by
  have hzero : significand y ≠ 0 := value_pos_iff.mp (zero_lt_one.trans_le hone)
  have hle : value x / value y ≤ value x := div_le_self (value_nonneg x) hone
  rw [div_eq hx hy hzero]
  apply (value_rounded_mono (t := isNegative x) hle _).1
  rwa [rounded_value hx]

theorem ofNat_eq (n : ℕ) : ofNat n = rounded false n := by
  rw [ofNat, ofFraction_eq (by decide), Nat.cast_one, div_one]

end Binary64

namespace Json

open Binary64 (isFinite value rounded roundBits infinityBits)

/-! ### Powers of ten -/

theorem powerOfTen_eq (k : ℕ) : powerOfTen k = rounded false (10 ^ k) := by
  rw [powerOfTen, Decimal.nearest_eq, Decimal.value]
  simp

theorem isFinite_rounded_of_le {q : ℚ} (h : q ≤ 10 ^ 308) : isFinite (rounded false q) = true := by
  have hcast : (10 : ℚ) ^ 308 = (10 ^ 308 : ℕ) := by rw [Nat.cast_pow, Nat.cast_ofNat]
  have hbits := Binary64.roundBits_mono h
  rw [hcast, Binary64.roundBits_natCast] at hbits
  exact Binary64.isFinite_rounded_iff.mpr (hbits.trans_lt Binary64.nearestBits_ends.2.1)

theorem powerOfTen_spec {k : ℕ} (hk : k ≤ 308) :
    isFinite (powerOfTen k) = true ∧ 1 ≤ value (powerOfTen k) := by
  have hone : value (rounded false 1) = 1 := by
    simpa using (Binary64.value_rounded (m := 1) (f := 0) (by decide) (by decide) (by decide)).1
  have hfinite := isFinite_rounded_of_le (pow_le_pow_right₀ (by norm_num) hk)
  rw [powerOfTen_eq]
  refine ⟨hfinite, ?_⟩
  rw [← hone]
  exact (Binary64.value_rounded_mono (one_le_pow₀ (by norm_num)) hfinite).2

/-! ### Finite results -/

variable {n : ℕ} {e : ℤ}

theorem isFinite_ofNat (h : n ≤ 10 ^ 17) : isFinite (Binary64.ofNat n) = true := by
  have hle : (n : ℚ) ≤ 10 ^ 308 := by
    have hcast : (n : ℚ) ≤ 10 ^ 17 := by exact_mod_cast h
    exact hcast.trans (pow_le_pow_right₀ (by norm_num) (by decide))
  rw [Binary64.ofNat_eq]
  exact isFinite_rounded_of_le hle

theorem value_ofNat_mono {m : ℕ} (h : n ≤ m) (hm : m ≤ 10 ^ 17) :
    value (Binary64.ofNat n) ≤ value (Binary64.ofNat m) := by
  have hfinite := isFinite_ofNat hm
  rw [Binary64.ofNat_eq] at hfinite
  rw [Binary64.ofNat_eq, Binary64.ofNat_eq]
  exact (Binary64.value_rounded_mono (Nat.cast_le.mpr h) hfinite).2

theorem value_powerOfTen_mono {j k : ℕ} (h : j ≤ k) (hk : k ≤ 308) :
    value (powerOfTen j) ≤ value (powerOfTen k) := by
  have hfinite := (powerOfTen_spec hk).1
  rw [powerOfTen_eq] at hfinite
  rw [powerOfTen_eq, powerOfTen_eq]
  exact (Binary64.value_rounded_mono (pow_le_pow_right₀ (by norm_num) h) hfinite).2

/-- The factors of a product may be replaced by larger ones to see that it is finite. -/
theorem isFinite_mul_powerOfTen {m j k : ℕ} (hn : n ≤ m) (hm : m ≤ 10 ^ 17) (hj : j ≤ k)
    (hk : k ≤ 308) (h : isFinite (Binary64.ofNat m * powerOfTen k) = true) :
    isFinite (Binary64.ofNat n * powerOfTen j) = true :=
  Binary64.isFinite_mul (isFinite_ofNat (hn.trans hm)) (powerOfTen_spec (hj.trans hk)).1
    (isFinite_ofNat hm) (powerOfTen_spec hk).1 (value_ofNat_mono hn hm)
    (value_powerOfTen_mono hj hk) h

/-- With powers of ten below the last ones all products are finite. With the last ones those are
whose digits are at most the ones here; the next number, which is still nearest to the largest
double, is not read as a finite one. -/
theorem isFinite_products : isFinite (Binary64.ofNat (10 ^ 17) * powerOfTen 291) = true ∧
    ∀ k ≤ 16, isFinite
      (Binary64.ofNat (17976931348623157 / 10 ^ k) * powerOfTen (292 + k)) = true := by
  decide +kernel

/-- A decimal whose nearest double is finite is read as a finite double, but for the one just above
the largest double. -/
theorem isFinite_mul_of_roundBits {k : ℕ} (hpos : 0 < n) (hn : n < 10 ^ 17)
    (hbits : roundBits (n * 10 ^ k) < infinityBits)
    (hne : (n * 10 ^ k : ℚ) ≠ (17976931348623158 : ℕ) * 10 ^ 292) :
    k ≤ 308 ∧ isFinite (Binary64.ofNat n * powerOfTen k) = true := by
  have hbound : n * 10 ^ k < 17976931348623159 * 10 ^ 292 := by
    by_contra hge
    have hcast : ((17976931348623159 * 10 ^ 292 : ℕ) : ℚ) ≤ n * 10 ^ k := by
      exact_mod_cast Nat.le_of_not_lt hge
    exact hbits.ne (Binary64.roundBits_eq_infinityBits hcast)
  rcases Nat.lt_or_ge k 292 with hk | hk
  · exact ⟨by omega,
      isFinite_mul_powerOfTen hn.le le_rfl (by omega) (by decide) isFinite_products.1⟩
  · obtain ⟨j, rfl⟩ := Nat.exists_eq_add_of_le hk
    have hsplit : n * 10 ^ (292 + j) = n * 10 ^ j * 10 ^ 292 := by
      rw [pow_add, Nat.mul_assoc, Nat.mul_comm (10 ^ j)]
    rw [hsplit] at hbound
    have hlt := Nat.lt_of_mul_lt_mul_right hbound
    have hne' : n * 10 ^ j ≠ 17976931348623158 := by
      rintro heq
      apply hne
      rw [← heq, pow_add, Nat.cast_mul, Nat.cast_pow, Nat.cast_ofNat, mul_assoc,
        mul_comm ((10 : ℚ) ^ j)]
    have hj : j ≤ 16 := by
      by_contra hj
      have : 10 ^ 17 ≤ n * 10 ^ j := (Nat.pow_le_pow_right (by decide) (by omega)).trans
        (Nat.le_mul_of_pos_left _ hpos)
      omega
    have hle : n ≤ 17976931348623157 / 10 ^ j := by
      rw [Nat.le_div_iff_mul_le (Nat.pow_pos (by decide))]
      omega
    have hdigits : 17976931348623157 / 10 ^ j ≤ 10 ^ 17 := (Nat.div_le_self _ _).trans (by decide)
    exact ⟨by omega,
      isFinite_mul_powerOfTen hle hdigits le_rfl (by omega) (isFinite_products.2 j hj)⟩

/-- A number of at most seventeen digits is read as a finite double if its nearest double is
finite. -/
theorem scaled_isFinite (hn : n < 10 ^ 17) (hbits : roundBits (n * 10 ^ e) < infinityBits)
    (hne : (n * 10 ^ e : ℚ) ≠ (17976931348623158 : ℕ) * 10 ^ 292) :
    ∃ y, scaled n e = .ok y ∧ isFinite y = true := by
  have hfinite := isFinite_ofNat hn.le
  rw [scaled]
  simp only
  by_cases hzero : n = 0
  · rw [if_pos hzero]
    exact ⟨_, rfl, hfinite⟩
  rw [if_neg hzero]
  rcases le_or_gt 0 e with he | he
  · obtain ⟨k, rfl⟩ := Int.eq_ofNat_of_zero_le he
    rw [zpow_natCast] at hbits hne
    obtain ⟨hk, hproduct⟩ := isFinite_mul_of_roundBits (Nat.pos_of_ne_zero hzero) hn hbits hne
    rw [if_neg (by omega), if_pos he, Int.toNat_natCast, hproduct]
    exact ⟨_, rfl, hproduct⟩
  · rw [if_neg (by omega), if_neg (by omega)]
    split_ifs with hlow hlow'
    · obtain ⟨hpower, hone⟩ := powerOfTen_spec (k := (-e).toNat) (by omega)
      exact ⟨_, rfl, Binary64.isFinite_div hfinite hpower hone⟩
    · obtain ⟨hpower, hone⟩ := powerOfTen_spec (k := 308) le_rfl
      obtain ⟨hpower', hone'⟩ := powerOfTen_spec (k := (-e - 308).toNat) (by omega)
      exact ⟨_, rfl, Binary64.isFinite_div (Binary64.isFinite_div hfinite hpower hone) hpower' hone'⟩
    · exact ⟨_, rfl, by decide⟩

/-! ### Exact results -/

theorem value_ofNat (hn : n < 9007199254740992) : value (Binary64.ofNat n) = n := by
  have hexact : value (rounded false (n * 2 ^ (0 : ℤ))) = n * 2 ^ (0 : ℤ) :=
    (Binary64.value_rounded hn (by decide) (by decide)).1
  rw [Binary64.ofNat_eq]
  simpa using hexact

/-- The first powers of ten are exact: their odd part has at most 53 bits. -/
theorem value_powerOfTen {k : ℕ} (hk : k ≤ 22) : value (powerOfTen k) = 10 ^ k := by
  have hodd : 5 ^ k < 9007199254740992 :=
    (Nat.pow_le_pow_right (by decide) hk).trans_lt (by decide)
  have hsplit : ((5 ^ k : ℕ) * 2 ^ (k : ℤ) : ℚ) = 10 ^ k := by
    rw [Nat.cast_pow, zpow_natCast, ← mul_pow]
    norm_num
  rw [powerOfTen_eq, ← hsplit]
  exact (Binary64.value_rounded hodd (by omega) (by omega)).1

/-- With few digits and a small power of ten the nearest double is read. -/
theorem scaled_eq_rounded (hn : n < 9007199254740992) (he : -22 ≤ e) (he' : e ≤ 22) :
    scaled n e = .ok (rounded false (n * 10 ^ e)) := by
  have hfinite := isFinite_ofNat (n := n) (by omega)
  have hvalue := value_ofNat hn
  have hsign (m : ℕ) : Binary64.isNegative (Binary64.ofNat m) = false := by
    rw [Binary64.ofNat_eq, Binary64.isNegative_rounded]
  have hsign' (k : ℕ) : Binary64.isNegative (powerOfTen k) = false := by
    rw [powerOfTen_eq, Binary64.isNegative_rounded]
  rw [scaled]
  simp only
  by_cases hzero : n = 0
  · rw [if_pos hzero, Binary64.ofNat_eq, hzero]
    simp
  rw [if_neg hzero, if_neg (by omega)]
  rcases le_or_gt 0 e with he₀ | he₀
  · obtain ⟨k, rfl⟩ := Int.eq_ofNat_of_zero_le he₀
    have hproduct : isFinite (Binary64.ofNat n * powerOfTen k) = true :=
      isFinite_mul_powerOfTen (by omega) le_rfl (by omega) (by decide) isFinite_products.1
    rw [if_pos he₀, Int.toNat_natCast, if_pos hproduct,
      Binary64.mul_eq hfinite (powerOfTen_spec (by omega)).1, hvalue, value_powerOfTen (by omega),
      hsign, hsign', zpow_natCast]
    rfl
  · obtain ⟨k, rfl⟩ : ∃ k : ℕ, e = -k := ⟨(-e).toNat, by omega⟩
    obtain ⟨hpower, hone⟩ := powerOfTen_spec (k := k) (by omega)
    have hk : (-(-(k : ℤ))).toNat = k := by omega
    rw [if_neg (by omega), if_pos (by omega), hk, Binary64.div_eq hfinite hpower
      (Binary64.value_pos_iff.mp (zero_lt_one.trans_le hone)), hvalue, value_powerOfTen (by omega),
      hsign, hsign', zpow_neg, zpow_natCast, div_eq_mul_inv]
    rfl

end Json

end LabelFleet
