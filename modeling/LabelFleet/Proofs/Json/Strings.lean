import LabelFleet.Json.Reader
import LabelFleet.Json.Text
import LabelFleet.Proofs.Number.Hexadecimals

/-! Strings in JSON: whatever a string holds, it is read back from its text, and what follows the
text is left for others to read. -/
namespace LabelFleet.Json

/-- The number of a byte in an escape of four digits. -/
theorem readHex_ofByte {n : Nat} (h : n < 256) (s : List Char) :
    readHex ('0' :: '0' :: (Hex.ofByte (UInt8.ofNat n) ++ s)) = .ok (n, s) := by
  have hbyte : (UInt8.ofNat n).toNat = n := by
    rw [UInt8.toNat_ofNat', Nat.mod_eq_of_lt (by omega)]
  have hzero : Hex.value? '0' = some 0 := rfl
  have hhigh : Hex.value? (Nat.digitChar (n / 16)) = some (n / 16) :=
    Hex.value?_digitChar (by omega)
  have hlow : Hex.value? (Nat.digitChar (n % 16)) = some (n % 16) :=
    Hex.value?_digitChar (by omega)
  have hnumber : ((0 * 16 + 0) * 16 + n / 16) * 16 + n % 16 = n := by omega
  rw [Hex.ofByte, hbyte]
  simp only [List.cons_append, List.nil_append, readHex, hzero, hhigh, hlow, hnumber]

theorem readUnicode_ofByte {c : Char} (h : c.toNat < 0x20) (s : List Char) :
    readUnicode ('0' :: '0' :: (Hex.ofByte (UInt8.ofNat c.toNat) ++ s)) = .ok (c, s) := by
  have hlow : isLowSurrogate c.toNat = false := by
    rw [isLowSurrogate, Bool.and_eq_false_iff]
    exact .inl (decide_eq_false (by omega))
  have hhigh : isHighSurrogate c.toNat = false := by
    rw [isHighSurrogate, Bool.and_eq_false_iff]
    exact .inl (decide_eq_false (by omega))
  rw [readUnicode, readHex_ofByte (by omega)]
  change (do
    if isLowSurrogate c.toNat then throw SyntaxError.loneSurrogate
    if !isHighSurrogate c.toNat then return (Char.ofNat c.toNat, s)
    _ : Except SyntaxError (Parsed Char)) = _
  rw [hlow, hhigh, Char.ofNat_toNat]
  rfl

/-- What a character is written as is read in one step as the character. -/
theorem readCharacters_escapeChar (fuel : Nat) (c : Char) (s : List Char) :
    readCharacters (fuel + 1) (escapeChar c ++ s) =
      (readCharacters fuel s).map fun r => (c :: r.1, r.2) := by
  have hmap : ∀ r : Except SyntaxError (Parsed (List Char)),
      (do let p ← r; return (c :: p.1, p.2)) = r.map fun r => (c :: r.1, r.2) := by
    intro r
    cases r <;> rfl
  rw [← hmap]
  unfold escapeChar
  split
  -- All characters but those that have a letter of their own.
  case h_8 _ hquote hbackslash _ _ _ _ _ =>
    split
    · next hcontrol =>
      change (do
        let p ← readUnicode ('0' :: '0' :: (Hex.ofByte (UInt8.ofNat c.toNat) ++ s))
        let q ← readCharacters fuel p.2
        return (p.1 :: q.1, q.2)) = _
      rw [readUnicode_ofByte hcontrol]
      rfl
    · next hcontrol =>
      rw [List.singleton_append, readCharacters, if_neg hquote, if_neg hbackslash,
        if_neg hcontrol]
  all_goals rfl

theorem readCharacters_escaped {fuel : Nat} {cs : List Char} (h : cs.length < fuel)
    (s : List Char) :
    readCharacters fuel (cs.flatMap escapeChar ++ '"' :: s) = .ok (cs, s) := by
  induction cs generalizing fuel with
  | nil =>
    obtain ⟨fuel, rfl⟩ := Nat.exists_eq_add_one_of_ne_zero (Nat.ne_of_gt h)
    rfl
  | cons c cs ih =>
    obtain ⟨fuel, rfl⟩ := Nat.exists_eq_add_one_of_ne_zero (Nat.ne_of_gt (Nat.zero_lt_of_lt h))
    rw [List.length_cons] at h
    rw [List.flatMap_cons, List.append_assoc, readCharacters_escapeChar, ih (by omega)]
    rfl

/-- A text is at least as long as the list whose items it writes out. -/
theorem length_le_flatMap {α : Type} {f : α → List Char} (hf : ∀ a, f a ≠ []) (items : List α) :
    items.length ≤ (items.flatMap f).length := by
  induction items with
  | nil => exact Nat.zero_le 0
  | cons a items ih =>
    have := List.length_pos_iff.mpr (hf a)
    rw [List.flatMap_cons, List.length_append, List.length_cons]
    omega

theorem escapeChar_ne_nil (c : Char) : escapeChar c ≠ [] := by
  unfold escapeChar
  split
  case h_8 => split <;> simp
  all_goals simp

/-- A string is read back from its text, after the opening quote. -/
theorem readString_escaped (t : String) (s : List Char) :
    readString (t.toList.flatMap escapeChar ++ '"' :: s) = .ok (t, s) := by
  have hlength := length_le_flatMap escapeChar_ne_nil t.toList
  rw [readString, readCharacters_escaped (by rw [List.length_append]; omega)]
  change Except.ok (String.ofList t.toList, s) = _
  rw [String.ofList_toList]

theorem stringText_append (t : String) (s : List Char) :
    stringText t ++ s = '"' :: (t.toList.flatMap escapeChar ++ '"' :: s) := by
  simp [stringText]

/-! ### The text of a string stands on one line -/

theorem le_toNat_of_mem_escapeChar {c d : Char} (h : c ∈ escapeChar d) : 0x20 ≤ c.toNat := by
  have hdigit : ∀ n < 16, 0x20 ≤ (Nat.digitChar n).toNat := by decide
  unfold escapeChar at h
  split at h
  case h_8 =>
    split at h
    · next hcontrol =>
      have hbyte : (UInt8.ofNat d.toNat).toNat = d.toNat := by
        rw [UInt8.toNat_ofNat', Nat.mod_eq_of_lt (by omega)]
      rw [Hex.ofByte, hbyte, List.mem_append, List.mem_cons, List.mem_singleton] at h
      rcases h with h | rfl | rfl
      · have hfront : "\\u00".toList.all (0x20 ≤ ·.toNat) = true := by decide
        exact of_decide_eq_true (List.all_eq_true.mp hfront c h)
      · exact hdigit _ (by omega)
      · exact hdigit _ (by omega)
    · next hcontrol =>
      rw [List.mem_singleton.mp h]
      omega
  all_goals
    rw [List.mem_cons, List.mem_singleton] at h
    rcases h with rfl | rfl <;> decide

theorem le_toNat_of_mem_stringText {c : Char} {t : String} (h : c ∈ stringText t) :
    0x20 ≤ c.toNat := by
  rw [stringText, List.cons_append, List.mem_cons, List.mem_append, List.mem_singleton] at h
  rcases h with rfl | h | rfl
  · decide
  · obtain ⟨d, -, hd⟩ := List.mem_flatMap.mp h
    exact le_toNat_of_mem_escapeChar hd
  · decide

end LabelFleet.Json
