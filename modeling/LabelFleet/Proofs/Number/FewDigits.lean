import LabelFleet.Proofs.Number.Accuracy
import LabelFleet.Proofs.Number.Numerals

/-! Numbers with few digits. The double nearest to a number of at most fifteen digits is written as
that number, and so is a whole number of at most 53 bits: no other number that is as short is read
as the same double. -/
namespace LabelFleet.Decimal

open Binary64 (isFinite isNegative magnitudeBits roundBits rounded absolute)

variable {x : Float} {n : ℕ} {e : ℤ}

/-! ### The only number on a grid -/

/-- A number of a grid that alone is read as the double is the shortest decimal. -/
theorem value_shortest_eq (tie : Tie) (hx : isFinite x = true) (hsign : isNegative x = false)
    (hpos : 0 < Binary64.value x) {k : ℕ} (hk : k < 17)
    (he : e = Int.log 10 (Binary64.value x) - k) (hread : roundBits (n * 10 ^ e) = magnitudeBits x)
    (honly : ∀ m : ℕ, roundBits (m * 10 ^ e) = magnitudeBits x → m = n) :
    (shortest tie x).value = n * 10 ^ e := by
  have hstep := ten_zpow_pos e
  have hself := Binary64.roundBits_value hx
  obtain ⟨hlow, hhigh⟩ := floor_div_mul_bounds hpos hstep
  -- What lies between the number and the double is read as the double, too.
  have hneighbour : readsAs x ⟨⌊Binary64.value x / 10 ^ e⌋₊, e⟩ = true ∨
      readsAs x ⟨⌊Binary64.value x / 10 ^ e⌋₊ + 1, e⟩ = true := by
    rw [readsAs_iff hsign, readsAs_iff hsign]
    rcases le_or_gt ((n : ℚ) * 10 ^ e) (Binary64.value x) with hle | hlt
    · left
      have hn : n ≤ ⌊Binary64.value x / 10 ^ e⌋₊ := Nat.le_floor ((le_div_iff₀ hstep).mpr hle)
      have hcast : (n : ℚ) * 10 ^ e ≤ ⌊Binary64.value x / 10 ^ e⌋₊ * 10 ^ e :=
        mul_le_mul_of_nonneg_right (Nat.cast_le.mpr hn) hstep.le
      apply le_antisymm
      · exact (Binary64.roundBits_mono hlow).trans hself.le
      · exact hread.ge.trans (Binary64.roundBits_mono hcast)
    · right
      have hn : ⌊Binary64.value x / 10 ^ e⌋₊ + 1 ≤ n :=
        (floor_div_add_one_le_iff hpos hstep).mpr hlt
      have hcast : ((⌊Binary64.value x / 10 ^ e⌋₊ + 1 : ℕ) : ℚ) * 10 ^ e ≤ n * 10 ^ e :=
        mul_le_mul_of_nonneg_right (Nat.cast_le.mpr hn) hstep.le
      apply le_antisymm
      · exact (Binary64.roundBits_mono hcast).trans hread.le
      · rw [← Nat.cast_add_one] at hhigh
        exact hself.ge.trans (Binary64.roundBits_mono hhigh.le)
  rw [he] at hneighbour
  obtain ⟨i, hi, d, hshortest, hreads, hexponent, -⟩ := exists_shortest_le tie hpos hk hneighbour
  -- What is found on a coarser grid is on this one, too.
  obtain ⟨j, rfl⟩ := Nat.exists_eq_add_of_le hi
  have hd : d.value = (d.digits * 10 ^ j : ℕ) * 10 ^ e := by
    have hsplit : d.exponent = j + e := by
      rw [hexponent, he]
      push_cast
      ring
    rw [value, hsplit, ten_zpow_add, zpow_natCast]
    push_cast
    ring
  rw [readsAs_iff hsign, hd] at hreads
  rw [hshortest, normalize_value, hd, honly _ hreads]

theorem written_eq (tie : Tie) (hx : isFinite x = true) (hpos : 0 < Binary64.value x) {k : ℕ}
    (hk : k < 17) (he : e = Int.log 10 (Binary64.value x) - k)
    (hread : roundBits (n * 10 ^ e) = magnitudeBits x)
    (honly : ∀ m : ℕ, roundBits (m * 10 ^ e) = magnitudeBits x → m = n) :
    written tie x = n * 10 ^ e := by
  have hbits := Binary64.magnitudeBits_absolute hx
  have hvalue := Binary64.value_congr hbits
  have hfinite : isFinite (absolute x) = true := by
    rwa [Binary64.isFinite_iff, hbits, ← Binary64.isFinite_iff]
  rw [written, if_neg (Binary64.value_pos_iff.mp hpos)]
  refine value_shortest_eq tie hfinite (Binary64.isNegative_absolute hx) ?_ hk ?_ ?_ ?_
  · rwa [hvalue]
  · rwa [hvalue]
  · rwa [hbits]
  · rwa [hbits]

/-! ### Whole numbers -/

theorem value_rounded_natCast (hn : n < 9007199254740992) :
    Binary64.value (rounded false n) = n ∧ isFinite (rounded false n) = true := by
  rw [← Binary64.ofNat_eq]
  exact ⟨Json.value_ofNat hn, Json.isFinite_ofNat (by omega)⟩

/-- Whole numbers of at most 53 bits are told apart. -/
theorem eq_of_roundBits_eq {m : ℕ} (hn : n < 9007199254740992)
    (h : roundBits m = roundBits n) : m = n := by
  have hsame : rounded false (m : ℚ) = rounded false n := Binary64.rounded_congr h
  obtain ⟨hvalue, hfinite⟩ := value_rounded_natCast hn
  rcases Nat.lt_or_ge m 9007199254740992 with hm | hm
  · have heq := (value_rounded_natCast hm).1
    rw [hsame, hvalue] at heq
    exact Nat.cast_injective heq.symm
  · -- A longer number is not read as a shorter one.
    have hpow : ((4503599627370496 : ℕ) : ℚ) * 2 ^ (1 : ℤ) = (9007199254740992 : ℕ) := by norm_num
    have hbound : Binary64.value (rounded false ((9007199254740992 : ℕ) : ℚ)) =
        (9007199254740992 : ℕ) := by
      rw [← hpow]
      exact (Binary64.value_rounded (by decide) (by decide) (by decide)).1
    have hmono := (Binary64.value_rounded_mono (s := false) (Nat.cast_le.mpr hm) (hsame ▸ hfinite)).2
    rw [hbound, hsame, hvalue, Nat.cast_le] at hmono
    omega

theorem written_natCast (tie : Tie) (hx : isFinite x = true) (hn : n < 9007199254740992)
    (hbits : roundBits n = magnitudeBits x) : written tie x = n := by
  have hvalue : Binary64.value x = n := by
    rw [← (value_rounded_natCast hn).1]
    exact Binary64.value_congr (by rw [Binary64.magnitudeBits_rounded, hbits])
  rcases Nat.eq_zero_or_pos n with rfl | hpos
  · have hzero : Binary64.significand x = 0 := by
      by_contra hne
      have := Binary64.value_pos_iff.mpr hne
      rw [hvalue, Nat.cast_zero] at this
      exact lt_irrefl 0 this
    rw [written, if_pos hzero, Nat.cast_zero]
  · have hlog : Nat.log 10 n < 17 := Nat.log_lt_of_lt_pow hpos.ne' (by omega)
    have hgrid : (0 : ℤ) = Int.log 10 (Binary64.value x) - Nat.log 10 n := by
      rw [hvalue, Int.log_natCast, sub_self]
    have heq := written_eq (n := n) tie hx (hvalue ▸ Nat.cast_pos.mpr hpos) hlog hgrid
      (by rwa [zpow_zero, mul_one]) fun m hm => by
        rw [zpow_zero, mul_one] at hm
        exact eq_of_roundBits_eq hn (hm.trans hbits.symm)
    rwa [zpow_zero, mul_one] at heq

/-! ### Fifteen digits -/

/-- A number of at most fifteen digits is on the grid of fifteen digits of the double that is
nearest to it. -/
theorem exists_eq_mul (hn : n < 10 ^ 15) {q : ℚ} (hpos : 0 < q)
    (hnear : |q - n * 10 ^ e| * 9007199254740992 ≤ q) :
    ∃ m : ℕ, (n : ℚ) * 10 ^ e = m * 10 ^ (Int.log 10 q - 14) := by
  have hle : Int.log 10 q - 14 ≤ e := by
    by_contra hlt
    -- A finer number below the first one with the order of the double would be too far from it.
    have hstep := ten_zpow_pos (Int.log 10 q - 15)
    have hlog : (10 : ℚ) ^ Int.log 10 q ≤ q := Int.zpow_log_le_self (by decide) hpos
    have hsplit : (10 : ℚ) ^ Int.log 10 q = 10 ^ 15 * 10 ^ (Int.log 10 q - 15) := by
      rw [← zpow_natCast, ← ten_zpow_add]
      congr 1
      push_cast
      ring
    have hstep' : (10 : ℚ) ^ e ≤ 10 ^ (Int.log 10 q - 15) :=
      zpow_le_zpow_right₀ (by norm_num) (by omega)
    have hn' : (n : ℚ) ≤ 10 ^ 15 - 1 := by
      have : (n : ℚ) + 1 ≤ 10 ^ 15 := by exact_mod_cast hn
      linarith
    have hupper : (n : ℚ) * 10 ^ e ≤ (10 ^ 15 - 1) * 10 ^ (Int.log 10 q - 15) :=
      mul_le_mul hn' hstep' (ten_zpow_pos e).le (by norm_num)
    have habs := le_abs_self (q - n * 10 ^ e)
    rw [hsplit] at hlog
    norm_num at hlog hupper
    linarith
  obtain ⟨j, hj⟩ : ∃ j : ℕ, e = j + (Int.log 10 q - 14) := ⟨(e - (Int.log 10 q - 14)).toNat, by omega⟩
  refine ⟨n * 10 ^ j, ?_⟩
  have hsplit : (10 : ℚ) ^ e = 10 ^ j * 10 ^ (Int.log 10 q - 14) := by
    conv_lhs => rw [hj]
    rw [ten_zpow_add, zpow_natCast]
  rw [hsplit]
  push_cast
  ring

/-- A double is written as the number of at most fifteen digits to which it is the nearest one. -/
theorem written_eq_of_lt (tie : Tie) (hx : isFinite x = true)
    (hlarge : 2 ^ (-1021 : ℤ) ≤ Binary64.value x) (hn : n < 10 ^ 15)
    (hread : roundBits (n * 10 ^ e) = magnitudeBits x) : written tie x = n * 10 ^ e := by
  have hpos : 0 < Binary64.value x := (Binary64.two_zpow_pos _).trans_le hlarge
  have hstep := ten_zpow_pos (Int.log 10 (Binary64.value x) - 14)
  have hnear := Binary64.abs_value_sub_le hx hlarge hread
  obtain ⟨m, hm⟩ := exists_eq_mul hn hpos hnear
  rw [hm] at hread hnear ⊢
  refine written_eq tie hx hpos (k := 14) (by decide) rfl hread ?_
  intro l hl
  have hnear' := Binary64.abs_value_sub_le hx hlarge hl
  have hlog : Binary64.value x < 10 ^ (Int.log 10 (Binary64.value x) + 1) :=
    Int.lt_zpow_succ_log_self (by decide) _
  have hsplit : (10 : ℚ) ^ (Int.log 10 (Binary64.value x) + 1) =
      10 ^ 15 * 10 ^ (Int.log 10 (Binary64.value x) - 14) := by
    rw [← zpow_natCast, ← ten_zpow_add]
    congr 1
    push_cast
    ring
  rw [hsplit] at hlog
  generalize (10 : ℚ) ^ (Int.log 10 (Binary64.value x) - 14) = g at *
  -- Both are so close to the double that they are less than a step apart.
  have hdist : |((l : ℚ) - m) * g| < g := by
    have htriangle : |((l : ℚ) - m) * g| ≤
        |Binary64.value x - l * g| + |Binary64.value x - m * g| := by
      have hsub : ((l : ℚ) - m) * g = (Binary64.value x - m * g) - (Binary64.value x - l * g) := by
        ring
      rw [hsub, add_comm]
      exact abs_sub _ _
    norm_num at hlog
    linarith
  rw [abs_mul, abs_of_pos hstep, mul_lt_iff_lt_one_left hstep] at hdist
  have hint : |((l : ℤ) - m)| < 1 := by exact_mod_cast hdist
  have hzero := Int.abs_lt_one_iff.mp hint
  omega

end LabelFleet.Decimal
