import LabelFleet.Printer.Ip
import LabelFleet.Proofs.Number.Decimals
import Mathlib.Data.List.TakeWhile

/-! Addresses of version 4 have one text each, and it is read back. -/
namespace LabelFleet.Ip

variable {rest s : List Char} {a b c d : UInt8}

theorem octet?_ofNat (a : UInt8) (h : ∀ c ∈ rest.head?, c.isDigit = false) :
    octet? (Digits.ofNat a.toNat ++ rest) = some (a, rest) := by
  have hbound : a.toNat < 256 := a.toNat_lt
  have hne : (Digits.ofNat a.toNat).isEmpty = false :=
    List.isEmpty_eq_false_iff.mpr (Digits.ofNat_ne_nil _)
  have hlength : (Digits.ofNat a.toNat).length ≤ 3 :=
    Digits.length_ofNat_le (Nat.lt_trans a.toNat_lt (by decide))
  have hzero : (Digits.ofNat a.toNat).head? = some '0' → (Digits.ofNat a.toNat).length = 1 := by
    intro hhead
    rcases Nat.eq_zero_or_pos a.toNat with h | h
    · rw [h, Digits.ofNat_of_lt (by decide)]
      rfl
    · exact absurd hhead (Digits.head?_ofNat h)
  rw [octet?, Digits.run_ofNat_append _ h]
  dsimp only
  rw [if_neg, if_pos (by rwa [Digits.toNat_ofNat]), Digits.toNat_ofNat, UInt8.ofNat_toNat]
  rintro (h | h | ⟨hhead, h⟩)
  · rw [hne] at h
    contradiction
  · omega
  · have := hzero hhead
    omega

/-- An octet has one text only. -/
theorem eq_of_octet? (h : octet? s = some (a, rest)) : s = Digits.ofNat a.toNat ++ rest := by
  rw [octet?] at h
  split at h
  next ds rest' hrun =>
  split_ifs at h with hdigits hbound
  obtain ⟨rfl, rfl⟩ := Prod.mk.inj (Option.some.inj h)
  simp only [not_or, not_and] at hdigits
  obtain ⟨hne, -, hzero⟩ := hdigits
  have hds : ds = s.takeWhile Char.isDigit := (congrArg Prod.fst hrun).symm
  have hsplit : ds ++ rest' = s := by
    rw [← Digits.run_append s, hrun]
  have htext : Digits.ofNat (Digits.toNat ds) = ds := by
    apply Digits.ofNat_toNat
    · exact fun h => hne (List.isEmpty_iff.mpr h)
    · intro c hc
      exact List.mem_takeWhile_imp (hds ▸ hc)
    · intro hhead
      have hpos := List.length_pos_of_ne_nil (fun h => hne (List.isEmpty_iff.mpr h))
      have := hzero hhead
      omega
  rw [UInt8.toNat_ofNat', Nat.mod_eq_of_lt hbound, htext, hsplit]

theorem octets_append (a b c d : UInt8) (rest : List Char) : octets a b c d ++ rest =
    Digits.ofNat a.toNat ++ '.' :: (Digits.ofNat b.toNat ++ '.' ::
      (Digits.ofNat c.toNat ++ '.' :: (Digits.ofNat d.toNat ++ rest))) := by
  simp [octets]

theorem octets?_octets (a b c d : UInt8) (h : ∀ c ∈ rest.head?, c.isDigit = false) :
    octets? (octets a b c d ++ rest) = some ((a, b, c, d), rest) := by
  have hdot : ∀ s : List Char, ∀ c ∈ ('.' :: s).head?, c.isDigit = false := by
    intro s c hc
    rw [← Option.some.inj hc]
    rfl
  have hchar : ∀ s : List Char, Text.char? '.' ('.' :: s) = some s := fun s => rfl
  rw [octets_append, octets?]
  simp only [octet?_ofNat _ (hdot _), octet?_ofNat _ h, hchar, Option.bind_eq_bind,
    Option.bind_some]
  rfl

theorem octets?_octets_nil (a b c d : UInt8) :
    octets? (octets a b c d) = some ((a, b, c, d), []) := by
  have hread : octets? (octets a b c d ++ []) = some ((a, b, c, d), []) :=
    octets?_octets a b c d (by simp)
  rwa [List.append_nil] at hread

/-- Four octets have one text only. -/
theorem eq_of_octets? (h : octets? s = some ((a, b, c, d), rest)) :
    s = octets a b c d ++ rest := by
  simp only [octets?, Option.bind_eq_bind, Option.bind_eq_some_iff, Prod.exists] at h
  obtain ⟨a', s₁, ha, t₁, hdot₁, b', s₂, hb, t₂, hdot₂, c', s₃, hc, t₃, hdot₃, d', s₄, hd, h⟩ := h
  cases h
  have hsplit : ∀ {s t : List Char}, Text.char? '.' s = some t → s = '.' :: t :=
    fun h => Text.after?_eq_some_iff.mp h
  rw [octets_append, eq_of_octet? ha, hsplit hdot₁, eq_of_octet? hb, hsplit hdot₂,
    eq_of_octet? hc, hsplit hdot₃, eq_of_octet? hd]

theorem mem_octets {x : Char} (h : x ∈ octets a b c d) : x.isDigit = true ∨ x = '.' := by
  have hdigit : ∀ {n : Nat}, x ∈ Digits.ofNat n → x.isDigit = true ∨ x = '.' :=
    fun h => .inl (Digits.isDigit_of_mem_ofNat h)
  simp only [octets, List.mem_append, List.mem_cons] at h
  rcases h with ((h | h | h) | h | h) | h | h
  · exact hdigit h
  · exact .inr h
  · exact hdigit h
  · exact .inr h
  · exact hdigit h
  · exact .inr h
  · exact hdigit h

end LabelFleet.Ip
