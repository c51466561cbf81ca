import LabelFleet.Number.Binary64
import Mathlib

/-! The order of doubles. Two doubles that are numbers compare as their places do, and one that is
not a number compares with nothing. The larger of two is then their maximum in that order. -/
namespace LabelFleet.Binary64

open Float.Model (UnpackedFloat)
open Float.Model.UnpackedFloat (Sign)

/-! ### Doubles taken apart -/

/-- The place of a double that has been taken apart. -/
def unpackedPlace : UnpackedFloat → Int
  | .notANumber => 0
  | .infinity s => s.apply (2047 * 4503599627370496)
  | .zero _ => 0
  | .finite s m e _ => s.apply ((e + 1074) * 4503599627370496 + m)

/-- The mantissa has 53 bits, or fewer with the least exponent. -/
def Canonical : UnpackedFloat → Prop
  | .finite _ m e _ =>
    -1074 ≤ e ∧ e ≤ 971 ∧ m < 9007199254740992 ∧ (m < 4503599627370496 → e = -1074)
  | _ => True

section

variable {m n : Nat} {e f : Int} {hm : 0 < m} {hn : 0 < n} {s : Sign}

theorem unpackedPlace_pos (h : Canonical (.finite .positive m e hm)) :
    0 < unpackedPlace (.finite .positive m e hm) := by
  obtain ⟨hlow, -⟩ := h
  simp only [unpackedPlace, Sign.apply]
  omega

theorem unpackedPlace_neg (h : Canonical (.finite .negative m e hm)) :
    unpackedPlace (.finite .negative m e hm) < 0 := by
  obtain ⟨hlow, -⟩ := h
  simp only [unpackedPlace, Sign.apply]
  omega

/-- What is not infinite lies between the infinities. -/
theorem unpackedPlace_bounds {u : UnpackedFloat} (h : Canonical u) (hu : ∀ s, u ≠ .infinity s) :
    unpackedPlace (.infinity .negative) < unpackedPlace u ∧
      unpackedPlace u < unpackedPlace (.infinity .positive) := by
  cases u with
  | infinity s => exact absurd rfl (hu s)
  | notANumber => decide
  | zero s => cases s <;> decide
  | finite s m e hm =>
    obtain ⟨hlow, hhigh, hmantissa, hleast⟩ := h
    cases s
    all_goals
      simp only [unpackedPlace, Sign.apply]
      omega

/-- Exponents decide, and mantissas where the exponents are equal. -/
theorem compare_finite (h : Canonical (.finite s m e hm)) (h' : Canonical (.finite s n f hn)) :
    (compare e f).then (compare m n) =
      compare ((e + 1074) * 4503599627370496 + m) ((f + 1074) * 4503599627370496 + n) := by
  obtain ⟨hlow, -, hmantissa, hleast⟩ := h
  obtain ⟨hlow', -, hmantissa', hleast'⟩ := h'
  rcases Int.lt_trichotomy e f with hlt | rfl | hgt
  · rw [compare_lt_iff_lt.mpr hlt, Ordering.lt_then, eq_comm, compare_lt_iff_lt]
    omega
  · rw [compare_eq_iff_eq.mpr rfl, Ordering.eq_then]
    rcases Nat.lt_trichotomy m n with hlt | rfl | hgt
    · rw [compare_lt_iff_lt.mpr hlt, eq_comm, compare_lt_iff_lt]
      omega
    · rw [compare_eq_iff_eq.mpr rfl, compare_eq_iff_eq.mpr rfl]
    · rw [compare_gt_iff_gt.mpr hgt, eq_comm, compare_gt_iff_gt]
      omega
  · rw [compare_gt_iff_gt.mpr hgt, Ordering.gt_then, eq_comm, compare_gt_iff_gt]
    omega

end

theorem compare_neg (a b : Int) : compare (-a) (-b) = (compare a b).swap := by
  rcases Int.lt_trichotomy a b with h | rfl | h
  · rw [compare_lt_iff_lt.mpr h, compare_gt_iff_gt.mpr (Int.neg_lt_neg h), Ordering.swap_lt]
  · rw [compare_eq_iff_eq.mpr rfl, compare_eq_iff_eq.mpr rfl, Ordering.swap_eq]
  · rw [compare_gt_iff_gt.mpr h, compare_lt_iff_lt.mpr (Int.neg_lt_neg h), Ordering.swap_gt]

theorem compare_unpacked {u v : UnpackedFloat} (hu : Canonical u) (hv : Canonical v)
    (hun : u ≠ .notANumber) (hvn : v ≠ .notANumber) :
    u.compare v = some (compare (unpackedPlace u) (unpackedPlace v)) := by
  have hless {a b : Int} (h : a < b) : some .lt = some (compare a b) :=
    congrArg some (compare_lt_iff_lt.mpr h).symm
  have hmore {a b : Int} (h : b < a) : some .gt = some (compare a b) :=
    congrArg some (compare_gt_iff_gt.mpr h).symm
  -- One case for each line of the comparison: infinities first, then signs, then magnitudes.
  fun_cases UnpackedFloat.compare u v with
  | case1 => contradiction
  | case2 => contradiction
  | case3 s t => cases s <;> cases t <;> rfl
  | case4 _ _ h => exact hmore (unpackedPlace_bounds hv h).2
  | case5 _ _ h => exact hless (unpackedPlace_bounds hv h).1
  | case6 _ _ h => exact hless (unpackedPlace_bounds hu h).2
  | case7 _ _ h => exact hmore (unpackedPlace_bounds hu h).1
  | case8 => exact hmore (unpackedPlace_pos hu)
  | case9 => exact hless (unpackedPlace_neg hu)
  | case10 => exact hless (unpackedPlace_pos hv)
  | case11 => exact hmore (unpackedPlace_neg hv)
  | case12 => rfl
  | case13 =>
    rw [compare_finite hu hv, ← compare_neg]
    rfl
  | case14 => exact hless ((unpackedPlace_neg hu).trans (unpackedPlace_pos hv))
  | case15 => exact hmore ((unpackedPlace_neg hv).trans (unpackedPlace_pos hu))
  | case16 => exact congrArg some (compare_finite hu hv)

/-! ### The fields of a double -/

/-- A double taken apart, from its sign and the bits of its exponent and fraction. -/
def ofFields (s : Sign) (exponent fraction : Nat) : UnpackedFloat :=
  if exponent = 2047 then
    if fraction = 0 then .infinity s else .notANumber
  else if exponent = 0 then
    if h : fraction = 0 then .zero s else .finite s fraction (-1074) (Nat.pos_of_ne_zero h)
  else .finite s (4503599627370496 + fraction) (exponent - 1075) (by omega)

def sign (x : Float) : Sign := if isNegative x then .negative else .positive

section

variable (b : UInt64)

theorem toNat_unpackExponent :
    (@UnpackedFloat.unpackExponent .binary64 b.toBitVec).toNat = b.toNat / Nat.pow 2 52 % 2048 := by
  simp [UnpackedFloat.unpackExponent, Nat.shiftRight_eq_div_pow]

theorem toNat_unpackMantissa :
    (@UnpackedFloat.unpackMantissa .binary64 b.toBitVec).toNat = b.toNat % Nat.pow 2 52 := by
  simp [UnpackedFloat.unpackMantissa]

theorem ofBitVec_unpackSign : Sign.ofBitVec (@UnpackedFloat.unpackSign .binary64 b.toBitVec) =
    if Nat.pow 2 63 ≤ b.toNat then .negative else .positive := by
  have hlt := b.toNat_lt
  have hzero : @UnpackedFloat.unpackSign .binary64 b.toBitVec = 0#1 ↔ ¬ Nat.pow 2 63 ≤ b.toNat := by
    simp [UnpackedFloat.unpackSign, ← BitVec.toNat_inj, Nat.shiftRight_eq_div_pow]
    omega
  rw [Sign.ofBitVec]
  simp only [hzero, ite_not]

theorem unpack_toBitVec : UnpackedFloat.unpack .binary64 b.toBitVec =
    ofFields (if Nat.pow 2 63 ≤ b.toNat then .negative else .positive)
      (b.toNat / Nat.pow 2 52 % 2048) (b.toNat % Nat.pow 2 52) := by
  have hone : (1#1).toNat = 1 := rfl
  have hones : (-1#11).toNat = 2047 := rfl
  have hbias : Float.Model.Format.binary64.exponentBias = 1023 := rfl
  have hfraction : b.toNat % Nat.pow 2 52 < 4503599627370496 := Nat.mod_lt _ (by decide)
  have hmantissa :
      1 <<< 52 ||| b.toNat % Nat.pow 2 52 = 4503599627370496 + b.toNat % Nat.pow 2 52 :=
    (Nat.shiftLeft_add_eq_or_of_lt hfraction 1).symm
  unfold UnpackedFloat.unpack ofFields
  simp only [← BitVec.toNat_inj, toNat_unpackExponent, toNat_unpackMantissa, ofBitVec_unpackSign,
    BitVec.toNat_append, hone, hones, hbias, hmantissa, BitVec.toNat_ofNat, Nat.zero_mod]
  generalize (if Nat.pow 2 63 ≤ b.toNat then Sign.negative else .positive) = s
  split_ifs with htop hzero hleast hzero
  · rfl
  · rfl
  · rfl
  · simp only [hleast, UnpackedFloat.finite.injEq, true_and]
    rfl
  · simp only [UnpackedFloat.finite.injEq, true_and]
    rfl

end

section

variable (x : Float)

theorem fractionBits_lt : fractionBits x < 4503599627370496 := Nat.mod_lt _ (by decide)

theorem exponentBits_lt : exponentBits x < 2048 := Nat.mod_lt _ (by decide)

theorem unpack_eq :
    x.toModel.unpack = ofFields (sign x) (exponentBits x) (fractionBits x) := by
  rw [sign, isNegative]
  simp only [decide_eq_true_eq]
  exact unpack_toBitVec x.toBits

theorem place_eq :
    place x = (sign x).apply (exponentBits x * 4503599627370496 + fractionBits x) := by
  have hlt := x.toBits.toNat_lt
  unfold place sign exponentBits fractionBits isNegative
  simp only [Nat.pow_eq, Nat.reducePow, decide_eq_true_eq]
  split_ifs with h
  · simp only [Sign.apply]
    omega
  · simp only [Sign.apply]
    omega

theorem isNaN_eq_true_iff : isNaN x = true ↔ exponentBits x = 2047 ∧ fractionBits x ≠ 0 := by
  simp [isNaN]

theorem canonical_unpack : Canonical x.toModel.unpack := by
  have hfraction := fractionBits_lt x
  have hexponent := exponentBits_lt x
  rw [unpack_eq, ofFields]
  split_ifs with htop hzero hleast hzero
  · trivial
  · trivial
  · trivial
  · exact ⟨by decide, by decide, by omega, fun _ => rfl⟩
  · exact ⟨by omega, by omega, by omega, by omega⟩

theorem unpack_eq_notANumber_iff : x.toModel.unpack = .notANumber ↔ isNaN x = true := by
  rw [unpack_eq, isNaN_eq_true_iff, ofFields]
  split_ifs with htop hzero hleast hzero <;> simp [*]

variable {x} in
theorem unpackedPlace_unpack (h : isNaN x = false) :
    unpackedPlace x.toModel.unpack = place x := by
  have hnumber : ¬ (exponentBits x = 2047 ∧ fractionBits x ≠ 0) := by
    rw [← isNaN_eq_true_iff, h]
    exact Bool.false_ne_true
  rw [unpack_eq, place_eq, ofFields]
  split_ifs with htop hzero hleast hzero
  · rw [htop, hzero]
    rfl
  · exact absurd ⟨htop, hzero⟩ hnumber
  · rw [hleast, hzero]
    cases sign x <;> rfl
  · rw [hleast]
    rfl
  · rw [unpackedPlace]
    congr 1
    omega

end

/-! ### The order -/

section

variable {x y z : Float}

theorem compare_unpack (x y : Float) : x.toModel.unpack.compare y.toModel.unpack =
    if isNaN x = false ∧ isNaN y = false then some (compare (place x) (place y)) else none := by
  split_ifs with h
  · obtain ⟨hx, hy⟩ := h
    rw [compare_unpacked (canonical_unpack x) (canonical_unpack y),
      unpackedPlace_unpack hx, unpackedPlace_unpack hy]
    · rw [ne_eq, unpack_eq_notANumber_iff, hx]
      exact Bool.false_ne_true
    · rw [ne_eq, unpack_eq_notANumber_iff, hy]
      exact Bool.false_ne_true
  · rw [not_and_or, Bool.not_eq_false, Bool.not_eq_false, ← unpack_eq_notANumber_iff,
      ← unpack_eq_notANumber_iff] at h
    rcases h with h | h
    · rw [h]
      rfl
    · rw [h]
      cases x.toModel.unpack <;> rfl

theorem le_iff_place :
    x ≤ y ↔ (isNaN x = false ∧ isNaN y = false) ∧ place x ≤ place y := by
  have hle : x ≤ y ↔ (x.toModel.unpack.compare y.toModel.unpack).any Ordering.isLE = true :=
    decide_eq_true_iff
  rw [hle, compare_unpack]
  split_ifs with h
  · simp [h, Ordering.isLE_iff_ne_gt, compare_gt_iff_gt]
  · simp [h]

theorem lt_iff_place :
    x < y ↔ (isNaN x = false ∧ isNaN y = false) ∧ place x < place y := by
  have hlt : x < y ↔ (x.toModel.unpack.compare y.toModel.unpack == some .lt) = true :=
    decide_eq_true_iff
  rw [hlt, compare_unpack]
  split_ifs with h
  · simp [h, compare_lt_iff_lt]
  · simp [h]

theorem not_lt_of_le (h : x ≤ y) : ¬ y < x := by
  rw [le_iff_place] at h
  rw [lt_iff_place]
  omega

theorem le_trans (hxy : x ≤ y) (hyz : y ≤ z) : x ≤ z := by
  rw [le_iff_place] at *
  exact ⟨⟨hxy.1.1, hyz.1.2⟩, hxy.2.trans hyz.2⟩

theorem eq_of_toBits_eq (h : x.toBits = y.toBits) : x = y := by
  obtain ⟨⟨xbits, _⟩⟩ := x
  obtain ⟨⟨ybits, _⟩⟩ := y
  obtain rfl : xbits = ybits := h
  rfl

theorem toNat_toBits_of_place_pos (h : 0 < place x) : (x.toBits.toNat : Int) = place x := by
  unfold place at h ⊢
  split_ifs at h ⊢ with hnegative
  · omega
  · rfl

/-- Of two zeros neither is the larger one, but any other number has a place of its own. -/
theorem le_antisymm_of_pos (hxy : x ≤ y) (hyx : y ≤ x) (h : 0 < place x) : x = y := by
  have hplace : place x = place y :=
    Int.le_antisymm (le_iff_place.mp hxy).2 (le_iff_place.mp hyx).2
  apply eq_of_toBits_eq
  apply UInt64.toNat.inj
  have hx := toNat_toBits_of_place_pos h
  have hy := toNat_toBits_of_place_pos (hplace ▸ h)
  omega

end

/-! ### Maxima -/

/-- The greatest number in a list; what is not a number does not count. -/
structure IsMaximum (m : Float) (xs : List Float) : Prop where
  mem : m ∈ xs
  isNumber : isNaN m = false
  upper : ∀ x ∈ xs, isNaN x = false → x ≤ m

section

variable {m n x : Float} {xs ys : List Float}

theorem isMaximum_singleton (h : isNaN m = false) : IsMaximum m [m] where
  mem := List.mem_singleton_self m
  isNumber := h
  upper := by
    intro x hx hnumber
    obtain rfl := List.mem_singleton.mp hx
    exact le_iff_place.mpr ⟨⟨h, h⟩, Int.le_refl _⟩

/-- With one more value the maximum is the one that is at least the maximum so far, and at least
that value if it is a number. -/
theorem IsMaximum.concat (h : IsMaximum m xs) (hmem : n ∈ xs ++ [x]) (hle : m ≤ n)
    (hx : isNaN x = false → x ≤ n) : IsMaximum n (xs ++ [x]) where
  mem := hmem
  isNumber := (le_iff_place.mp hle).1.2
  upper := by
    intro y hy hnumber
    rcases List.mem_append.mp hy with hy | hy
    · exact le_trans (h.upper y hy hnumber) hle
    · obtain rfl := List.mem_singleton.mp hy
      exact hx hnumber

/-- Taking the larger of the maximum and one more value. -/
theorem IsMaximum.larger (h : IsMaximum m xs) (x : Float) :
    IsMaximum (larger m x) (xs ++ [x]) := by
  have hm : (isNaN m = true) = False := by simp [h.isNumber]
  have hself : m ≤ m := h.upper m h.mem h.isNumber
  have hleft : m ∈ xs ++ [x] := List.mem_append_left _ h.mem
  unfold Binary64.larger
  simp only [hm, ↓reduceIte]
  split_ifs with hnumber hlt
  · refine h.concat hleft hself ?_
    intro hx
    rw [hnumber] at hx
    cases hx
  · have hx : isNaN x = false := Bool.not_eq_true _ ▸ hnumber
    refine h.concat (List.mem_append_right _ (List.mem_singleton_self x)) ?_ ?_
    · exact le_iff_place.mpr ⟨⟨h.isNumber, hx⟩, Int.le_of_lt hlt⟩
    · exact fun _ => le_iff_place.mpr ⟨⟨hx, hx⟩, Int.le_refl _⟩
  · refine h.concat hleft hself ?_
    exact fun hx => le_iff_place.mpr ⟨⟨hx, h.isNumber⟩, Int.not_lt.mp hlt⟩

theorem IsMaximum.foldl (h : IsMaximum m xs) (ys : List Float) :
    IsMaximum (ys.foldl Binary64.larger m) (xs ++ ys) := by
  induction ys generalizing m xs with
  | nil => exact (List.append_nil xs).symm ▸ h
  | cons y ys ih =>
    rw [List.foldl_cons, List.append_cons]
    exact ih (h.larger y)

theorem IsMaximum.congr (h : IsMaximum m xs) (hmem : ∀ x, x ∈ xs ↔ x ∈ ys) : IsMaximum m ys where
  mem := (hmem m).mp h.mem
  isNumber := h.isNumber
  upper := fun x hx => h.upper x ((hmem x).mpr hx)

theorem IsMaximum.le_of_subset (hm : IsMaximum m xs) (hn : IsMaximum n ys) (h : xs ⊆ ys) :
    m ≤ n :=
  hn.upper m (h hm.mem) hm.isNumber

/-- Values with the same members have the same maximum, if it is positive. -/
theorem IsMaximum.eq_of_mem_iff (hm : IsMaximum m xs) (hn : IsMaximum n ys)
    (h : ∀ x, x ∈ xs ↔ x ∈ ys) (hpos : 0 < place m) : m = n :=
  le_antisymm_of_pos (hm.le_of_subset hn fun x => (h x).mp) (hn.le_of_subset hm fun x => (h x).mpr)
    hpos

theorem IsMaximum.not_lt (h : IsMaximum m xs) (hx : x ∈ xs) : ¬ m < x := by
  intro hlt
  have hnumber : isNaN x = false := (lt_iff_place.mp hlt).1.2
  exact not_lt_of_le (h.upper x hx hnumber) hlt

/-- The maximum of two lists together is that of their maxima. -/
theorem IsMaximum.append {k : Float} (hm : IsMaximum m xs) (hn : IsMaximum n ys)
    (hk : IsMaximum k (xs ++ ys)) (hpos : 0 < place k) : IsMaximum k [m, n] := by
  have hmk : m ≤ k := hm.le_of_subset hk (List.subset_append_left xs ys)
  have hnk : n ≤ k := hn.le_of_subset hk (List.subset_append_right xs ys)
  refine ⟨?_, hk.isNumber, ?_⟩
  · rw [List.mem_cons, List.mem_singleton]
    rcases List.mem_append.mp hk.mem with h | h
    · exact .inl (le_antisymm_of_pos (hm.upper k h hk.isNumber) hmk hpos)
    · exact .inr (le_antisymm_of_pos (hn.upper k h hk.isNumber) hnk hpos)
  · intro x hx _
    rw [List.mem_cons, List.mem_singleton] at hx
    rcases hx with rfl | rfl
    · exact hmk
    · exact hnk

end

end LabelFleet.Binary64
