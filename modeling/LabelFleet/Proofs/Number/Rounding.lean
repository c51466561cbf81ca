import LabelFleet.Number.Binary64
import Mathlib.Algebra.Order.Floor.Semifield
import Mathlib.Data.Int.Log
import Mathlib.Data.Rat.Floor
import Mathlib.Tactic.FieldSimp
import Mathlib.Tactic.Linarith
import Mathlib.Tactic.NormNum
import Mathlib.Tactic.Positivity
import Mathlib.Tactic.Ring

/-! Rounding to doubles. The bits nearest to a fraction depend on its value alone; they grow with
it, and the value of a finite double is rounded to that double. -/
namespace LabelFleet.Binary64

/-! ### Fractions -/

section

variable {base num den : ℕ} {e : ℤ}

theorem scaleDown_snd_pos (hbase : 0 < base) (hden : 0 < den) :
    0 < (scaleDown base num den e).2 := by
  rw [scaleDown]
  split_ifs
  · exact Nat.mul_pos hden (Nat.pow_pos hbase)
  · exact hden

theorem scaleDown_eq_div (hbase : 0 < base) :
    ((scaleDown base num den e).1 : ℚ) / (scaleDown base num den e).2 =
      (num : ℚ) / den / (base : ℚ) ^ e := by
  have hb : (base : ℚ) ≠ 0 := Nat.cast_ne_zero.mpr (Nat.ne_of_gt hbase)
  rw [scaleDown]
  split_ifs with he
  · obtain ⟨n, rfl⟩ := Int.eq_ofNat_of_zero_le he
    simp [div_div]
  · obtain ⟨n, rfl⟩ : ∃ n : ℕ, e = -n := ⟨(-e).toNat, by omega⟩
    simp
    ring

/-- The difference of the orders of numerator and denominator is the order of the fraction, or one
more than that. -/
theorem ite_scaleDown_eq_log {k l : ℕ} (hbase : 1 < base) (hnum : base ^ k ≤ num)
    (hnum' : num < base ^ (k + 1)) (hden : base ^ l ≤ den) (hden' : den < base ^ (l + 1)) :
    (if (scaleDown base num den ((k : ℤ) - l)).2 ≤ (scaleDown base num den ((k : ℤ) - l)).1
      then (k : ℤ) - l else (k : ℤ) - l - 1) = Int.log base ((num : ℚ) / den) := by
  have hb : (0 : ℚ) < base := by exact_mod_cast Nat.zero_lt_of_lt hbase
  have hn : 0 < num := Nat.lt_of_lt_of_le (Nat.pow_pos (Nat.zero_lt_of_lt hbase)) hnum
  have hd : 0 < den := Nat.lt_of_lt_of_le (Nat.pow_pos (Nat.zero_lt_of_lt hbase)) hden
  have hq : (0 : ℚ) < (num : ℚ) / den := by positivity
  have hm : 0 < (scaleDown base num den ((k : ℤ) - l)).2 :=
    scaleDown_snd_pos (Nat.zero_lt_of_lt hbase) hd
  -- `m ≤ n` says that the fraction is at least `base ^ (k - l)`.
  have htest : (scaleDown base num den ((k : ℤ) - l)).2 ≤ (scaleDown base num den ((k : ℤ) - l)).1 ↔
      (base : ℚ) ^ ((k : ℤ) - l) ≤ (num : ℚ) / den := by
    rw [← one_le_div₀ (zpow_pos hb _), ← scaleDown_eq_div (Nat.zero_lt_of_lt hbase),
      one_le_div₀ (Nat.cast_pos.mpr hm), Nat.cast_le]
  have hlow : (base : ℚ) ^ ((k : ℤ) - l - 1) < (num : ℚ) / den := by
    have hpow : (base : ℚ) ^ ((k : ℤ) - l - 1) = (base : ℚ) ^ k / (base : ℚ) ^ (l + 1) := by
      rw [sub_sub, zpow_sub₀ hb.ne', zpow_natCast]
      norm_cast
    rw [hpow, div_lt_div_iff₀ (by positivity) (by positivity)]
    exact_mod_cast Nat.mul_lt_mul_of_le_of_lt hnum hden' hn
  have hhigh : (num : ℚ) / den < (base : ℚ) ^ ((k : ℤ) - l + 1) := by
    have hpow : (base : ℚ) ^ ((k : ℤ) - l + 1) = (base : ℚ) ^ (k + 1) / (base : ℚ) ^ l := by
      rw [sub_add_eq_add_sub, zpow_sub₀ hb.ne', zpow_natCast]
      norm_cast
    rw [hpow, div_lt_div_iff₀ (by positivity) (by positivity)]
    exact_mod_cast Nat.mul_lt_mul_of_lt_of_le hnum' hden hd
  have h₁ := Int.zpow_le_iff_le_log hbase hq (x := (k : ℤ) - l)
  have h₂ := Int.zpow_le_iff_le_log hbase hq (x := (k : ℤ) - l - 1)
  have h₃ := Int.lt_zpow_iff_log_lt hbase hq (x := (k : ℤ) - l + 1)
  rw [if_congr htest rfl rfl]
  split_ifs with h
  · have := h₁.mp h
    have := h₃.mp hhigh
    omega
  · have := h₁.not.mp h
    have := h₂.mp hlow.le
    omega

end

theorem binaryOrder_eq {num den : ℕ} (hnum : 0 < num) (hden : 0 < den) :
    binaryOrder num den = Int.log 2 ((num : ℚ) / den) :=
  ite_scaleDown_eq_log (by decide) (Nat.log2_self_le hnum.ne') Nat.lt_log2_self
    (Nat.log2_self_le hden.ne') Nat.lt_log2_self

/-! ### The nearest integer -/

/-- The integer nearest to a number; a tie goes to the even one. -/
def nearestNat (q : ℚ) : ℕ :=
  if 1 / 2 < q - ⌊q⌋₊ ∨ (1 / 2 = q - ⌊q⌋₊ ∧ ⌊q⌋₊ % 2 = 1) then ⌊q⌋₊ + 1 else ⌊q⌋₊

theorem roundEven_eq {num den : ℕ} (hden : 0 < den) :
    roundEven num den = nearestNat ((num : ℚ) / den) := by
  have hd : (0 : ℚ) < den := Nat.cast_pos.mpr hden
  have hfloor : ⌊(num : ℚ) / den⌋₊ = num / den := Nat.floor_div_eq_div num den
  have hrest : (num : ℚ) / den - (num / den : ℕ) = (num % den : ℕ) / den := by
    have hdiv : (num : ℚ) = den * (num / den : ℕ) + (num % den : ℕ) := by
      exact_mod_cast (Nat.div_add_mod num den).symm
    rw [sub_eq_iff_eq_add, div_eq_iff hd.ne', add_mul, div_mul_cancel₀ _ hd.ne']
    linarith
  have hlt : den < 2 * (num % den) ↔ (1 : ℚ) / 2 < (num % den : ℕ) / den := by
    rw [div_lt_div_iff₀ (by decide) hd, one_mul, mul_comm]
    exact_mod_cast Iff.rfl
  have heq : den = 2 * (num % den) ↔ (1 : ℚ) / 2 = (num % den : ℕ) / den := by
    rw [div_eq_div_iff (by decide) hd.ne', one_mul, mul_comm]
    exact_mod_cast Iff.rfl
  rw [roundEven, nearestNat, hfloor, hrest]
  simp only [hlt, heq]

section

variable {q r : ℚ} {n : ℕ}

theorem floor_le_nearestNat (q : ℚ) : ⌊q⌋₊ ≤ nearestNat q := by
  rw [nearestNat]
  split_ifs <;> omega

theorem nearestNat_le (q : ℚ) : nearestNat q ≤ ⌊q⌋₊ + 1 := by
  rw [nearestNat]
  split_ifs <;> omega

theorem nearestNat_of_lt (hn : (n : ℚ) ≤ q) (hq : q < n + 1 / 2) : nearestNat q = n := by
  have hfloor : ⌊q⌋₊ = n := (Nat.floor_eq_iff (n.cast_nonneg.trans hn)).mpr ⟨hn, by linarith⟩
  rw [nearestNat, hfloor, if_neg]
  rintro (h | ⟨h, -⟩) <;> linarith

theorem nearestNat_of_gt (hn : (n : ℚ) + 1 / 2 < q) (hq : q < n + 1) : nearestNat q = n + 1 := by
  have hnonneg : (0 : ℚ) ≤ n := n.cast_nonneg
  have hfloor : ⌊q⌋₊ = n := (Nat.floor_eq_iff (by linarith)).mpr ⟨by linarith, hq⟩
  rw [nearestNat, hfloor, if_pos (.inl (by linarith))]

@[simp] theorem nearestNat_natCast (n : ℕ) : nearestNat n = n :=
  nearestNat_of_lt le_rfl (by linarith)

theorem nearestNat_mono (h : q ≤ r) : nearestNat q ≤ nearestNat r := by
  rcases (Nat.floor_mono h).lt_or_eq with hlt | heq
  · exact (nearestNat_le q).trans (Nat.le_trans hlt (floor_le_nearestNat r))
  · -- Between the same integers the rest decides.
    unfold nearestNat
    rw [heq]
    split_ifs with h₁ h₂
    · exact le_rfl
    · exfalso
      apply h₂
      rcases h₁ with h₁ | ⟨h₁, hodd⟩
      · exact .inl (by linarith)
      · rcases h.lt_or_eq with hlt | rfl
        · exact .inl (by linarith)
        · exact .inr ⟨h₁, hodd⟩
    · omega
    · exact le_rfl

theorem le_nearestNat (hq : (n : ℚ) ≤ q) : n ≤ nearestNat q := by
  simpa using nearestNat_mono hq

theorem nearestNat_le_of_le (hq : q ≤ n) : nearestNat q ≤ n := by
  simpa using nearestNat_mono hq

end

/-! ### The nearest bits -/

/-- The exponent of the last place of the doubles around a number. -/
def lastPlace (q : ℚ) : ℤ := max (Int.log 2 q - 52) (-1074)

/-- The bits of a significand with the exponent of its last place. -/
def encode (s : ℕ) (e : ℤ) : ℕ := (e + 1074).toNat * 4503599627370496 + s

/-- The bits of the double nearest to a number. -/
def roundBits (q : ℚ) : ℕ :=
  if q ≤ 0 then 0
  else min infinityBits (encode (nearestNat (q / 2 ^ lastPlace q)) (lastPlace q))

/-- The bits nearest to a fraction depend on its value alone. -/
theorem nearestBits_eq {num den : ℕ} (hden : 0 < den) :
    nearestBits num den = roundBits ((num : ℚ) / den) := by
  rcases Nat.eq_zero_or_pos num with rfl | hnum
  · simp [nearestBits, roundBits]
  have hq : (0 : ℚ) < (num : ℚ) / den := by positivity
  have hround (e : ℤ) : roundEven (scaleDown 2 num den e).1 (scaleDown 2 num den e).2 =
      nearestNat ((num : ℚ) / den / 2 ^ e) := by
    rw [roundEven_eq (scaleDown_snd_pos (by decide) hden), scaleDown_eq_div (by decide)]
    rfl
  rw [nearestBits, if_neg hnum.ne', roundBits, if_neg hq.not_ge, binaryOrder_eq hnum hden]
  simp only [hround]
  rfl

/-! ### Significands -/

/-- A significand has 53 bits, or fewer with the least exponent. -/
structure Normalized (s : ℕ) (e : ℤ) : Prop where
  lower : -1074 ≤ e
  upper : s < 9007199254740992
  least : s < 4503599627370496 → e = -1074

section

variable {s t : ℕ} {e f : ℤ} {q r : ℚ}

theorem two_zpow_pos (e : ℤ) : (0 : ℚ) < 2 ^ e := zpow_pos (by decide) e

theorem two_zpow_add (e f : ℤ) : (2 : ℚ) ^ (e + f) = 2 ^ e * 2 ^ f :=
  zpow_add₀ (by decide) e f

/-- All numbers between a significand and the next one have the same last place. -/
theorem Normalized.lastPlace_eq (h : Normalized s e) (hq : 0 < q) (hlow : (s : ℚ) * 2 ^ e ≤ q)
    (hhigh : q < (s + 1) * 2 ^ e) : lastPlace q = e := by
  have hpos := two_zpow_pos e
  have hupper : (s : ℚ) + 1 ≤ 2 ^ (53 : ℤ) := by
    have := h.upper
    norm_num
    exact_mod_cast this
  have hlt : Int.log 2 q < 53 + e := by
    rw [← Int.lt_zpow_iff_log_lt (by decide) hq, Nat.cast_ofNat, two_zpow_add]
    exact hhigh.trans_le (mul_le_mul_of_nonneg_right hupper hpos.le)
  have hlower := h.lower
  rw [lastPlace]
  rcases Nat.lt_or_ge s 4503599627370496 with hs | hs
  · -- Such a number is below the normal range.
    obtain rfl := h.least hs
    have hsmall : (s : ℚ) + 1 ≤ 2 ^ (52 : ℤ) := by
      norm_num
      exact_mod_cast hs
    have : Int.log 2 q < 52 + -1074 := by
      rw [← Int.lt_zpow_iff_log_lt (by decide) hq, Nat.cast_ofNat, two_zpow_add]
      exact hhigh.trans_le (mul_le_mul_of_nonneg_right hsmall hpos.le)
    omega
  · have hbig : (2 : ℚ) ^ (52 : ℤ) ≤ s := by
      norm_num
      exact_mod_cast hs
    have : 52 + e ≤ Int.log 2 q := by
      rw [← Int.zpow_le_iff_le_log (by decide) hq, Nat.cast_ofNat, two_zpow_add]
      exact (mul_le_mul_of_nonneg_right hbig hpos.le).trans hlow
    omega

/-- A number is rounded to the significand below it or to the next one. -/
theorem Normalized.roundBits_eq (h : Normalized s e) (hq : 0 < q) (hlow : (s : ℚ) * 2 ^ e ≤ q)
    (hhigh : q < (s + 1) * 2 ^ e) :
    roundBits q = min infinityBits (encode (nearestNat (q / 2 ^ e)) e) := by
  rw [roundBits, if_neg hq.not_ge, h.lastPlace_eq hq hlow hhigh]

/-- Every positive number lies between a significand and the next one. -/
theorem exists_normalized (hq : 0 < q) :
    ∃ s e, Normalized s e ∧ (s : ℚ) * 2 ^ e ≤ q ∧ q < (s + 1) * 2 ^ e := by
  have hpos := two_zpow_pos (lastPlace q)
  have hnonneg : 0 ≤ q / 2 ^ lastPlace q := (div_pos hq hpos).le
  refine ⟨⌊q / 2 ^ lastPlace q⌋₊, lastPlace q, ⟨le_max_right _ _, ?_, ?_⟩, ?_, ?_⟩
  · rw [Nat.floor_lt hnonneg, div_lt_iff₀ hpos]
    calc
      q < 2 ^ (Int.log 2 q + 1) := Int.lt_zpow_succ_log_self (by decide) q
      _ ≤ 2 ^ (53 + lastPlace q) := zpow_le_zpow_right₀ (by decide) (by rw [lastPlace]; omega)
      _ = _ := by
        rw [two_zpow_add]
        norm_num
  · intro hs
    rw [Nat.floor_lt hnonneg, div_lt_iff₀ hpos] at hs
    by_contra hleast
    have hplace : lastPlace q = Int.log 2 q - 52 := by
      rw [lastPlace] at hleast ⊢
      omega
    have hself : (2 : ℚ) ^ Int.log 2 q ≤ q := Int.zpow_log_le_self (by decide) hq
    have hpow : (2 : ℚ) ^ Int.log 2 q = 2 ^ (52 : ℤ) * 2 ^ lastPlace q := by
      rw [← two_zpow_add, hplace]
      congr 1
      omega
    rw [hpow] at hself
    norm_num at hself hs
    linarith
  · rw [← le_div_iff₀ hpos]
    exact Nat.floor_le hnonneg
  · rw [← div_lt_iff₀ hpos]
    exact Nat.lt_floor_add_one _

theorem Normalized.le_nearestNat (hlow : (s : ℚ) * 2 ^ e ≤ q) : s ≤ nearestNat (q / 2 ^ e) :=
  Binary64.le_nearestNat ((le_div_iff₀ (two_zpow_pos e)).mpr hlow)

theorem Normalized.nearestNat_le (hhigh : q < (s + 1) * 2 ^ e) :
    nearestNat (q / 2 ^ e) ≤ s + 1 := by
  apply nearestNat_le_of_le
  rw [Nat.cast_add_one]
  exact ((div_lt_iff₀ (two_zpow_pos e)).mpr hhigh).le

/-- A larger number is not rounded to a smaller double. -/
theorem roundBits_mono (h : q ≤ r) : roundBits q ≤ roundBits r := by
  rcases le_or_gt q 0 with hq | hq
  · rw [roundBits, if_pos hq]
    exact Nat.zero_le _
  have hr := hq.trans_le h
  obtain ⟨s, e, hs, hlow, hhigh⟩ := exists_normalized hq
  obtain ⟨t, f, ht, hlow', hhigh'⟩ := exists_normalized hr
  rw [hs.roundBits_eq hq hlow hhigh, ht.roundBits_eq hr hlow' hhigh']
  apply min_le_min_left
  rcases lt_trichotomy e f with hlt | rfl | hgt
  · -- The significand of the larger number has all its bits.
    have hn := Normalized.nearestNat_le hhigh
    have hn' := Normalized.le_nearestNat hlow'
    have hmin := hs.lower
    have hmax := hs.upper
    have hleast := ht.least
    rw [encode, encode]
    omega
  · have hn := nearestNat_mono (div_le_div_of_nonneg_right h (two_zpow_pos e).le)
    rw [encode, encode]
    omega
  · exfalso
    have hbig : 4503599627370496 ≤ s := by
      have := hs.least
      have := ht.lower
      omega
    have hexp : (2 : ℚ) ^ (f + 1) ≤ 2 ^ e := zpow_le_zpow_right₀ (by decide) hgt
    have hpos := two_zpow_pos f
    have : (4503599627370496 : ℚ) * 2 ^ (f + 1) ≤ s * 2 ^ e :=
      mul_le_mul (by exact_mod_cast hbig) hexp (two_zpow_pos _).le (Nat.cast_nonneg s)
    have : ((t : ℚ) + 1) * 2 ^ f ≤ 9007199254740992 * 2 ^ f :=
      mul_le_mul_of_nonneg_right (by exact_mod_cast ht.upper) hpos.le
    rw [two_zpow_add, zpow_one] at *
    linarith

end

end LabelFleet.Binary64
