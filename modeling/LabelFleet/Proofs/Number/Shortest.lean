import LabelFleet.Number.Decimal
import LabelFleet.Proofs.Number.Decimals
import LabelFleet.Proofs.Number.Values

/-! Decimals and the doubles nearest to them. A double has a decimal of at most seventeen digits
that is read back as that double. -/
namespace LabelFleet

namespace Binary64

variable {x : Float} {q r : ℚ}

/-! ### Around a double -/

/-- A number less than half a place above a double is rounded to it. -/
theorem roundBits_of_above (hx : isFinite x = true) (hpos : 0 < value x) (hle : value x ≤ q)
    (hlt : q < (significand x + 1 / 2) * 2 ^ exponent x) : roundBits q = magnitudeBits x := by
  have hplace := two_zpow_pos (exponent x)
  have hhigh : q < (significand x + 1) * 2 ^ exponent x := by
    rw [add_mul] at hlt ⊢
    linarith
  have hnearest : nearestNat (q / 2 ^ exponent x) = significand x :=
    nearestNat_of_lt ((le_div_iff₀ hplace).mpr hle) ((div_lt_iff₀ hplace).mpr hlt)
  rw [(normalized_significand x).roundBits_eq (hpos.trans_le hle) hle hhigh, hnearest,
    encode_significand]
  exact min_eq_right (isFinite_iff.mp hx).le

/-- The significand below another one, and what is added to it for the next one. -/
theorem Normalized.exists_below {s : ℕ} {e : ℤ} (h : Normalized s e) (hs : 0 < s) :
    ∃ t f, Normalized t f ∧ ((t : ℚ) + 1) * 2 ^ f = s * 2 ^ e ∧ encode (t + 1) f = encode s e ∧
      (2 : ℚ) ^ f ≤ 2 ^ e ∧ (4503599627370496 < s → f = e) ∧ (2 : ℚ) ^ e ≤ 2 * 2 ^ f := by
  have hlower := h.lower
  have hupper := h.upper
  by_cases hborder : s = 4503599627370496 ∧ -1074 < e
  · -- Below a power of two the places are half as large.
    obtain ⟨rfl, he⟩ := hborder
    have htwo : (2 : ℚ) * 2 ^ (e - 1) = 2 ^ e := by
      rw [← zpow_one_add₀ (by decide)]
      congr 1
      omega
    refine ⟨9007199254740991, e - 1, ⟨by omega, by decide, fun h => absurd h (by decide)⟩, ?_, ?_,
      zpow_le_zpow_right₀ (by decide) (by omega), fun h => absurd h (by decide), htwo.ge⟩
    · rw [← htwo]
      push_cast
      ring
    · rw [encode, encode]
      omega
  · have hleast := h.least
    have hpos := two_zpow_pos e
    refine ⟨s - 1, e, ⟨hlower, by omega, by omega⟩, ?_, ?_, le_rfl, fun _ => rfl, by linarith⟩
    · rw [Nat.cast_sub hs, Nat.cast_one, sub_add_cancel]
    · rw [Nat.sub_add_cancel hs]

/-- A number close to a double is rounded to it: the double's own size, by seventeen digits, is less
than half a place. -/
theorem roundBits_of_near (hx : isFinite x = true) (hpos : 0 < value x)
    (h : |q - value x| * 20000000000000000 ≤ value x) : roundBits q = magnitudeBits x := by
  have hnormal := normalized_significand x
  have hplace := two_zpow_pos (exponent x)
  have hupper : (significand x : ℚ) < 9007199254740992 := by exact_mod_cast hnormal.upper
  have hsize : value x < 9007199254740992 * 2 ^ exponent x := mul_lt_mul_of_pos_right hupper hplace
  rcases le_total (value x) q with hle | hle
  · apply roundBits_of_above hx hpos hle
    rw [abs_of_nonneg (sub_nonneg.mpr hle)] at h
    rw [add_mul, ← value]
    linarith
  · rw [abs_of_nonpos (sub_nonpos.mpr hle)] at h
    have hs : 0 < significand x := Nat.pos_of_ne_zero (value_pos_iff.mp hpos)
    obtain ⟨t, f, ht, hvalue, hcode, hf, hfar, hf'⟩ := hnormal.exists_below hs
    have hplace' := two_zpow_pos f
    rw [← value] at hvalue
    -- It is more than half a place above the double below.
    have hhalf : ((t : ℚ) + 1 / 2) * 2 ^ f < q := by
      have hcase : value x < 10000000000000000 * 2 ^ f := by
        rcases Nat.lt_or_ge 4503599627370496 (significand x) with hlt | hge
        · rw [hfar hlt]
          linarith
        · have hsmall : (significand x : ℚ) ≤ 4503599627370496 := by exact_mod_cast hge
          have := mul_le_mul_of_nonneg_right hsmall hplace.le
          rw [← value] at this
          linarith
      rw [add_mul] at hvalue ⊢
      linarith
    rcases hle.lt_or_eq with hlt | heq
    · have hlow : (t : ℚ) * 2 ^ f ≤ q := by
        rw [add_mul] at hhalf
        linarith
      have hhigh : q < (t + 1) * 2 ^ f := by rwa [hvalue]
      have hq : 0 < q := by
        have : (0 : ℚ) ≤ t * 2 ^ f := mul_nonneg t.cast_nonneg hplace'.le
        rw [add_mul] at hhalf
        linarith
      have hnearest : nearestNat (q / 2 ^ f) = t + 1 :=
        nearestNat_of_gt ((lt_div_iff₀ hplace').mpr hhalf) ((div_lt_iff₀ hplace').mpr hhigh)
      rw [ht.roundBits_eq hq hlow hhigh, hnearest, hcode, encode_significand]
      exact min_eq_right (isFinite_iff.mp hx).le
    · rw [heq, roundBits_value hx]

/-! ### The ends of the range -/

/-- The least double is far above `10 ^ -330`. The greatest one is nearest to a number whose first
digits are 17976931348623158, and infinity to one whose digits are one more. -/
theorem nearestBits_ends : nearestBits 1 (10 ^ 330) = 0 ∧
    nearestBits (10 ^ 308) 1 < infinityBits ∧
    nearestBits (17976931348623158 * 10 ^ 292) 1 = infinityBits - 1 ∧
    nearestBits (17976931348623159 * 10 ^ 292) 1 = infinityBits ∧
    nearestBits (Nat.pow 2 1024) 1 = infinityBits := by
  decide +kernel

theorem roundBits_natCast (n : ℕ) : roundBits n = nearestBits n 1 := by
  rw [nearestBits_eq (by decide), Nat.cast_one, div_one]

theorem roundBits_eq_zero (h : q ≤ 1 / 10 ^ 330) : roundBits q = 0 := by
  have hcast : (1 : ℚ) / 10 ^ 330 = (1 : ℕ) / (10 ^ 330 : ℕ) := by
    rw [Nat.cast_one, Nat.cast_pow, Nat.cast_ofNat]
  have hbits : roundBits (1 / 10 ^ 330) = 0 :=
    calc
      roundBits (1 / 10 ^ 330) = roundBits ((1 : ℕ) / (10 ^ 330 : ℕ)) := congrArg roundBits hcast
      _ = nearestBits 1 (10 ^ 330) := (nearestBits_eq (pow_pos (by decide) 330)).symm
      _ = 0 := nearestBits_ends.1
  exact Nat.eq_zero_of_le_zero (hbits ▸ roundBits_mono h)

theorem roundBits_eq_infinityBits (h : (17976931348623159 * 10 ^ 292 : ℕ) ≤ q) :
    roundBits q = infinityBits := by
  have hbits := roundBits_mono h
  rw [roundBits_natCast, nearestBits_ends.2.2.2.1] at hbits
  exact (roundBits_le q).antisymm hbits

end Binary64

namespace Decimal

open Binary64 (rounded roundBits value magnitudeBits isFinite)

/-- The number that a decimal stands for. -/
def value (d : Decimal) : ℚ := d.digits * 10 ^ d.exponent

/-! ### Lengths and orders -/

theorem length_ofNat (n : ℕ) : (Digits.ofNat n).length = Nat.log 10 n + 1 := by
  fun_induction Digits.ofNat n with
  | case1 n h => rw [List.length_singleton, Nat.log_of_lt h]
  | case2 n h ih =>
    rw [List.length_append, ih, List.length_singleton, Nat.log_div_base,
      Nat.sub_add_cancel (Nat.log_pos (by decide) (Nat.le_of_not_lt h))]

theorem length_eq {n : ℕ} (h : 0 < n) : length n = Nat.log 10 n + 1 := by
  rw [length, if_neg h.ne', length_ofNat]

theorem order_eq {num den : ℕ} (hnum : 0 < num) (hden : 0 < den) :
    order num den = Int.log 10 ((num : ℚ) / den) := by
  have hdiff : (length num : ℤ) - length den = (Nat.log 10 num : ℤ) - Nat.log 10 den := by
    rw [length_eq hnum, length_eq hden]
    omega
  rw [order, hdiff]
  exact Binary64.ite_scaleDown_eq_log (by decide) (Nat.pow_log_le_self 10 hnum.ne')
    (Nat.lt_pow_succ_log_self (by decide) num) (Nat.pow_log_le_self 10 hden.ne')
    (Nat.lt_pow_succ_log_self (by decide) den)

theorem ten_zpow_pos (e : ℤ) : (0 : ℚ) < 10 ^ e := zpow_pos (by decide) e

theorem ten_zpow_add (e f : ℤ) : (10 : ℚ) ^ (e + f) = 10 ^ e * 10 ^ f := zpow_add₀ (by decide) e f

/-- A number lies between two multiples of a step that follow each other. -/
theorem floor_div_mul_bounds {q r : ℚ} (hq : 0 < q) (hr : 0 < r) :
    ⌊q / r⌋₊ * r ≤ q ∧ q < (⌊q / r⌋₊ + 1) * r := by
  rw [← le_div_iff₀ hr, ← div_lt_iff₀ hr]
  exact ⟨Nat.floor_le (div_pos hq hr).le, Nat.lt_floor_add_one _⟩

theorem floor_div_add_one_le_iff {q r : ℚ} (hq : 0 < q) (hr : 0 < r) {n : ℕ} :
    ⌊q / r⌋₊ + 1 ≤ n ↔ q < n * r := by
  rw [Nat.add_one_le_iff, Nat.floor_lt (div_pos hq hr).le, div_lt_iff₀ hr]

variable {d : Decimal}

theorem value_lt (d : Decimal) : d.value < 10 ^ ((length d.digits : ℤ) + d.exponent) := by
  rw [value, ten_zpow_add]
  apply mul_lt_mul_of_pos_right _ (ten_zpow_pos _)
  rcases Nat.eq_zero_or_pos d.digits with h | h
  · rw [h, Nat.cast_zero]
    exact ten_zpow_pos _
  · rw [length_eq h, zpow_natCast]
    exact_mod_cast Nat.lt_pow_succ_log_self (by decide) d.digits

theorem le_value (h : 0 < d.digits) :
    (10 : ℚ) ^ ((length d.digits : ℤ) + d.exponent - 1) ≤ d.value := by
  have hexp : (length d.digits : ℤ) + d.exponent - 1 = (Nat.log 10 d.digits : ℤ) + d.exponent := by
    rw [length_eq h]
    omega
  rw [value, hexp, ten_zpow_add, zpow_natCast]
  apply mul_le_mul_of_nonneg_right _ (ten_zpow_pos _).le
  exact_mod_cast Nat.pow_log_le_self 10 h.ne'

/-! ### The nearest double -/

/-- The double that is read from a decimal depends on its value alone. -/
theorem nearest_eq (negative : Bool) (d : Decimal) : nearest negative d = rounded negative d.value := by
  have hcut (n : ℕ) (h : roundBits (n : ℚ) = roundBits d.value) :
      Binary64.ofFraction negative n 1 = rounded negative d.value := by
    rw [Binary64.ofFraction_eq (by decide), Nat.cast_one, div_one, Binary64.rounded_congr h]
  rw [nearest]
  simp only
  split_ifs with hzero hbig
  · -- Far below the least double, and at zero.
    apply hcut
    rw [Nat.cast_zero, Binary64.roundBits_eq_zero (by positivity), Binary64.roundBits_eq_zero]
    rcases hzero with h | h
    · rw [value, h, Nat.cast_zero, zero_mul]
      positivity
    · rw [one_div, ← zpow_natCast, ← zpow_neg]
      exact (value_lt d).le.trans (zpow_le_zpow_right₀ (by decide) (by push_cast; omega))
  · -- Far above the greatest one.
    apply hcut
    have hdigits : 0 < d.digits := by omega
    have hlarge : ((17976931348623159 * 10 ^ 292 : ℕ) : ℚ) ≤ d.value := by
      have hpow : 17976931348623159 * 10 ^ 292 ≤ 10 ^ (18 + 292) := by
        rw [pow_add]
        exact Nat.mul_le_mul_right _ (by decide)
      have hcast : ((10 ^ (18 + 292) : ℕ) : ℚ) = 10 ^ ((18 + 292 : ℕ) : ℤ) := by
        rw [zpow_natCast, Nat.cast_pow, Nat.cast_ofNat]
      refine (Nat.cast_le.mpr hpow).trans ?_
      rw [hcast]
      exact (zpow_le_zpow_right₀ (by decide) (by push_cast; omega)).trans (le_value hdigits)
    rw [Binary64.roundBits_natCast, Binary64.nearestBits_ends.2.2.2.2,
      Binary64.roundBits_eq_infinityBits hlarge]
  · rw [Binary64.ofFraction_eq (Binary64.scaleDown_snd_pos (by decide) (by decide)),
      Binary64.scaleDown_eq_div (by decide), value]
    simp

/-! ### Normal decimals -/

theorem normalize_value (d : Decimal) : (normalize d).value = d.value := by
  fun_induction normalize d with
  | case1 d h ih =>
    have hten : (10 : ℚ) * (d.digits / 10 : ℕ) = d.digits := by
      exact_mod_cast Nat.mul_div_cancel' (Nat.dvd_of_mod_eq_zero h.2)
    rw [ih, value, value, ten_zpow_add, zpow_one, ← hten]
    ring
  | case2 d h => rfl

theorem digits_normalize_le (d : Decimal) : (normalize d).digits ≤ d.digits := by
  fun_induction normalize d with
  | case1 d h ih => exact ih.trans (Nat.div_le_self _ _)
  | case2 d h => exact le_rfl

/-- A zero at the end is taken away. -/
theorem digits_normalize_lt {k : ℕ} (h : d.digits ≤ 10 ^ (k + 1)) :
    (normalize d).digits < 10 ^ (k + 1) := by
  rcases h.lt_or_eq with hlt | heq
  · exact (digits_normalize_le d).trans_lt hlt
  · have hten : d.digits = 10 * 10 ^ k := by rw [heq, pow_succ, Nat.mul_comm]
    have hpos : 0 < 10 ^ k := Nat.pow_pos (by decide)
    rw [normalize, if_pos ⟨by omega, by omega⟩]
    refine (digits_normalize_le _).trans_lt ?_
    change d.digits / 10 < _
    rw [pow_succ]
    omega

/-! ### The shortest decimal -/

variable {x : Float}

theorem readsAs_iff (hsign : Binary64.isNegative x = false) :
    readsAs x d = true ↔ roundBits d.value = magnitudeBits x := by
  rw [readsAs, beq_iff_eq, nearest_eq, ← UInt64.toNat_inj, Binary64.toNat_toBits_rounded,
    Binary64.toNat_toBits_eq, hsign]
  simp

section

variable {tie : Tie} {num den : ℕ} {e : ℤ}

theorem scaleDown_div_eq_floor (num den : ℕ) (e : ℤ) :
    (Binary64.scaleDown 10 num den e).1 / (Binary64.scaleDown 10 num den e).2 =
      ⌊(num : ℚ) / den / 10 ^ e⌋₊ := by
  rw [← Nat.floor_div_eq_div (K := ℚ), Binary64.scaleDown_eq_div (by decide)]
  rfl

/-- What is found on a grid is one of two neighbours, and is read back. -/
theorem onGrid?_eq_some (h : onGrid? tie x num den e = some d) :
    readsAs x d = true ∧ d.exponent = e ∧ d.digits ≤ ⌊(num : ℚ) / den / 10 ^ e⌋₊ + 1 := by
  rw [← scaleDown_div_eq_floor]
  rw [onGrid?] at h
  simp only at h
  split at h
  · contradiction
  · next hlow _ =>
    cases h
    exact ⟨hlow, rfl, Nat.le_succ _⟩
  · next _ hhigh =>
    cases h
    exact ⟨hhigh, rfl, le_rfl⟩
  · next hlow hhigh =>
    split_ifs at h
    · cases h
      exact ⟨hlow, rfl, Nat.le_succ _⟩
    · cases h
      exact ⟨hhigh, rfl, le_rfl⟩

/-- Something is found on a grid if one of the neighbours is read back. -/
theorem onGrid?_ne_none
    (h : readsAs x ⟨⌊(num : ℚ) / den / 10 ^ e⌋₊, e⟩ = true ∨
      readsAs x ⟨⌊(num : ℚ) / den / 10 ^ e⌋₊ + 1, e⟩ = true) :
    onGrid? tie x num den e ≠ none := by
  rw [← scaleDown_div_eq_floor] at h
  rw [onGrid?]
  simp only
  split
  · next hlow hhigh =>
    rw [hlow, hhigh] at h
    simp at h
  · simp
  · simp
  · split_ifs <;> simp

end

/-- Of the two decimals of seventeen digits around a double the nearer one is read back. -/
theorem readsAs_seventeen (hx : isFinite x = true) (hsign : Binary64.isNegative x = false)
    (hpos : 0 < Binary64.value x) {e : ℤ} (he : e = Int.log 10 (Binary64.value x) - 16) :
    readsAs x ⟨⌊Binary64.value x / 10 ^ e⌋₊, e⟩ = true ∨
      readsAs x ⟨⌊Binary64.value x / 10 ^ e⌋₊ + 1, e⟩ = true := by
  have hstep := ten_zpow_pos e
  have hsize : 10 ^ e * 10000000000000000 ≤ Binary64.value x := by
    have hlog : (10 : ℚ) ^ Int.log 10 (Binary64.value x) ≤ Binary64.value x :=
      Int.zpow_log_le_self (by decide) hpos
    have hexp : Int.log 10 (Binary64.value x) = e + 16 := by omega
    rw [hexp, ten_zpow_add] at hlog
    norm_num at hlog
    exact hlog
  obtain ⟨hlow, hhigh⟩ := floor_div_mul_bounds hpos hstep
  rw [readsAs_iff hsign, readsAs_iff hsign, value, value]
  simp only [Nat.cast_add_one]
  generalize (⌊Binary64.value x / 10 ^ e⌋₊ : ℚ) = low at *
  rcases le_total (Binary64.value x - low * 10 ^ e) (10 ^ e / 2) with hnear | hfar
  · left
    apply Binary64.roundBits_of_near hx hpos
    rw [abs_of_nonpos (sub_nonpos.mpr hlow)]
    linarith
  · right
    apply Binary64.roundBits_of_near hx hpos
    rw [abs_of_nonneg (sub_nonneg.mpr hhigh.le), add_mul]
    linarith

/-- Of the first numbers the first one is found for which there is something. -/
theorem exists_le_of_findSome?_range {α : Type} {f : ℕ → Option α} {a : α} {n k : ℕ} (hk : k < n)
    (hf : f k ≠ none) (h : (List.range n).findSome? f = some a) : ∃ i ≤ k, f i = some a := by
  obtain ⟨before, i, after, hrange, hi, hbefore⟩ := List.findSome?_eq_some_iff.mp h
  refine ⟨i, ?_, hi⟩
  by_contra hlt
  have hsorted : (before ++ i :: after).Pairwise (· < ·) := hrange ▸ List.pairwise_lt_range
  have hmem : k ∈ before ++ i :: after := hrange ▸ List.mem_range.mpr hk
  rcases List.mem_append.mp hmem with hfront | hback
  · exact hf (hbefore k hfront)
  · rcases List.mem_cons.mp hback with rfl | hback
    · exact hlt le_rfl
    · have := (List.pairwise_cons.mp (List.pairwise_append.mp hsorted).2.1).1 k hback
      omega

/-- The shortest decimal is found at the latest on a grid on which one of the neighbours is read
back. -/
theorem exists_shortest_le (tie : Tie) (hpos : 0 < Binary64.value x) {k : ℕ} (hk : k < 17)
    (h : readsAs x ⟨⌊Binary64.value x / 10 ^ (Int.log 10 (Binary64.value x) - k)⌋₊,
          Int.log 10 (Binary64.value x) - k⟩ = true ∨
        readsAs x ⟨⌊Binary64.value x / 10 ^ (Int.log 10 (Binary64.value x) - k)⌋₊ + 1,
          Int.log 10 (Binary64.value x) - k⟩ = true) :
    ∃ i ≤ k, ∃ d, shortest tie x = normalize d ∧ readsAs x d = true ∧
      d.exponent = Int.log 10 (Binary64.value x) - i ∧
      d.digits ≤ ⌊Binary64.value x / 10 ^ (Int.log 10 (Binary64.value x) - i)⌋₊ + 1 := by
  have hden := Binary64.magnitude_snd_pos x
  have hvalue := Binary64.magnitude_eq x
  have hnum : 0 < (Binary64.magnitude x).1 := by
    by_contra h
    rw [Nat.eq_zero_of_not_pos h, Nat.cast_zero, zero_div] at hvalue
    exact hpos.ne hvalue
  have horder := order_eq hnum hden
  rw [hvalue] at horder
  rw [shortest]
  simp only [horder]
  have hgrid : onGrid? tie x (Binary64.magnitude x).1 (Binary64.magnitude x).2
      (Int.log 10 (Binary64.value x) - k) ≠ none := by
    apply onGrid?_ne_none
    rwa [hvalue]
  generalize hfound : ((List.range 17).findSome? fun (i : ℕ) =>
    onGrid? tie x (Binary64.magnitude x).1 (Binary64.magnitude x).2
      (Int.log 10 (Binary64.value x) - i)) = found
  cases found with
  | none => exact absurd (List.findSome?_eq_none_iff.mp hfound k (List.mem_range.mpr hk)) hgrid
  | some d =>
    obtain ⟨i, hi, hsome⟩ := exists_le_of_findSome?_range hk hgrid hfound
    obtain ⟨hreads, hexponent, hdigits⟩ := onGrid?_eq_some hsome
    rw [hvalue] at hdigits
    exact ⟨i, hi, d, rfl, hreads, hexponent, hdigits⟩

/-- The shortest decimal is found among those of at most seventeen digits. -/
theorem exists_shortest (tie : Tie) (hx : isFinite x = true)
    (hsign : Binary64.isNegative x = false) (hpos : 0 < Binary64.value x) :
    ∃ d, readsAs x d = true ∧ d.digits ≤ 10 ^ 17 ∧ shortest tie x = normalize d := by
  obtain ⟨i, hi, d, hshortest, hreads, -, hdigits⟩ :=
    exists_shortest_le tie hpos (k := 16) (by decide) (readsAs_seventeen hx hsign hpos rfl)
  refine ⟨d, hreads, hdigits.trans ?_, hshortest⟩
  have hstep := ten_zpow_pos (Int.log 10 (Binary64.value x) - i)
  have hlog : Binary64.value x < 10 ^ (Int.log 10 (Binary64.value x) + 1) :=
    Int.lt_zpow_succ_log_self (by decide) _
  rw [floor_div_add_one_le_iff hpos hstep]
  calc
    Binary64.value x < 10 ^ (Int.log 10 (Binary64.value x) + 1) := hlog
    _ ≤ 10 ^ (17 + (Int.log 10 (Binary64.value x) - i)) :=
      zpow_le_zpow_right₀ (by decide) (by omega)
    _ = _ := by
      rw [ten_zpow_add]
      norm_num

/-- The shortest decimal has at most seventeen digits and is read back. -/
theorem shortest_spec (tie : Tie) (hx : isFinite x = true) (hsign : Binary64.isNegative x = false)
    (hpos : 0 < Binary64.value x) :
    0 < (shortest tie x).digits ∧ (shortest tie x).digits < 10 ^ 17 ∧
      roundBits (shortest tie x).value = magnitudeBits x := by
  obtain ⟨d, hreads, hdigits, heq⟩ := exists_shortest tie hx hsign hpos
  rw [readsAs_iff hsign] at hreads
  rw [heq, normalize_value]
  refine ⟨?_, digits_normalize_lt hdigits, hreads⟩
  by_contra h
  have hvalue : d.value = 0 := by
    rw [← normalize_value, value, Nat.eq_zero_of_not_pos h, Nat.cast_zero, zero_mul]
  have hbits : magnitudeBits x = 0 := by
    rw [← hreads, hvalue]
    exact if_pos le_rfl
  exact Binary64.value_pos_iff.mp hpos (Binary64.significand_eq_zero_iff.mpr hbits)

end Decimal

end LabelFleet
