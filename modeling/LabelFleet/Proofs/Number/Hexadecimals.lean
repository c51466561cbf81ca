import LabelFleet.Number.Hex
import Mathlib.Tactic.Common

/-! Hexadecimal digits of natural numbers are read back as the number. -/
namespace LabelFleet.Hex

theorem value?_digitChar {d : Nat} (h : d < 16) : value? (Nat.digitChar d) = some d := by
  have all : ∀ d < 16, value? (Nat.digitChar d) = some d := by decide
  exact all d h

theorem isDigit_digitChar {d : Nat} (h : d < 16) : isDigit (Nat.digitChar d) = true := by
  rw [isDigit, value?_digitChar h]
  rfl

theorem ofNat_ne_nil (n : Nat) : ofNat n ≠ [] := by
  rw [ofNat]
  split <;> simp

theorem isDigit_of_mem_ofNat {n : Nat} {c : Char} (h : c ∈ ofNat n) : isDigit c = true := by
  fun_induction ofNat n with
  | case1 n hn => exact List.mem_singleton.mp h ▸ isDigit_digitChar hn
  | case2 n hn ih =>
    rcases List.mem_append.mp h with h | h
    · exact ih h
    · exact List.mem_singleton.mp h ▸ isDigit_digitChar (Nat.mod_lt n (by decide))

theorem inBase_concat (base : Nat) (ds : List Char) (d : Char) :
    inBase base (ds ++ [d]) = base * inBase base ds + (value? d).getD 0 := by
  rw [inBase, List.foldl_append]
  rfl

theorem inBase_ofNat (n : Nat) : inBase 16 (ofNat n) = n := by
  fun_induction ofNat n with
  | case1 n hn =>
    have h := inBase_concat 16 [] (Nat.digitChar n)
    rw [value?_digitChar hn] at h
    exact h.trans (Nat.zero_add n)
  | case2 n hn ih =>
    rw [inBase_concat, ih, value?_digitChar (Nat.mod_lt n (by decide))]
    exact Nat.div_add_mod n 16

theorem length_ofNat_le {n k : Nat} (h : n < Nat.pow 16 (k + 1)) : (ofNat n).length ≤ k + 1 := by
  induction k generalizing n with
  | zero =>
    rw [ofNat, if_pos h]
    exact Nat.le_refl 1
  | succ k ih =>
    rw [ofNat]
    split
    · simp
    · have hfront : (ofNat (n / 16)).length ≤ k + 1 :=
        ih ((Nat.div_lt_iff_lt_mul (by decide)).mpr h)
      rw [List.length_append, List.length_singleton]
      omega

end LabelFleet.Hex
