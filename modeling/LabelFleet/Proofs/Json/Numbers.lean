import LabelFleet.Json.Reader
import LabelFleet.Json.Text
import LabelFleet.Proofs.Json.Scaling
import LabelFleet.Proofs.Number.Numerals

/-! Numbers in JSON. A whole number is read back from its text, and so is a double but for its last
place: the reader computes it from the doubles of its digits and of its power of ten. -/
namespace LabelFleet.Json

open Numeral (powerText)

/-- What may stand behind a number: nothing with which it would go on. -/
def Follows (s : List Char) : Prop :=
  ∀ c ∈ s.head?, c.isDigit = false ∧ c ≠ '.' ∧ c ≠ 'e' ∧ c ≠ 'E'

/-! ### The parts of a number -/

/-- All digits are taken as long as the number that they make fits. -/
theorem absorb_eq {ds : List Char} {seen : ℕ}
    (h : seen * 10 ^ ds.length + Digits.toNat ds < 18446744073709551616) :
    absorb seen ds = (seen * 10 ^ ds.length + Digits.toNat ds, ds.length) := by
  induction ds generalizing seen with
  | nil => simp [absorb, Digits.toNat]
  | cons d ds ih =>
    have htotal : seen * 10 ^ (d :: ds).length + Digits.toNat (d :: ds) =
        (10 * seen + Digits.value d) * 10 ^ ds.length + Digits.toNat ds := by
      rw [← List.singleton_append, Digits.toNat_append, List.length_append, pow_add]
      simp only [Digits.toNat, List.foldl_cons, List.foldl_nil, List.length_singleton]
      ring
    rw [htotal] at h ⊢
    have hfits : 10 * seen + Digits.value d < Nat.pow 2 64 := by
      have := Nat.le_mul_of_pos_right (10 * seen + Digits.value d)
        (Nat.pow_pos (by decide) : 0 < 10 ^ ds.length)
      change _ < 18446744073709551616
      omega
    rw [absorb]
    simp only
    rw [if_pos hfits, ih h, List.length_cons]

section

variable {n : Numeral} {s rest : List Char}

theorem readWhole_append (h : n.Proper) (hrest : ∀ c ∈ rest.head?, c.isDigit = false) :
    readWhole (n.whole ++ rest) = .ok (n.whole, rest) := by
  have hrun := Digits.run_append_stop h.isDigit_whole hrest
  obtain ⟨c, ds, hcons⟩ := List.exists_cons_of_ne_nil h.whole_ne_nil
  have hdigit : c.isDigit = true := h.isDigit_whole c (hcons ▸ List.mem_cons_self)
  rw [hcons] at hrun ⊢
  rw [List.cons_append] at hrun ⊢
  rw [readWhole]
  split_ifs with hzero hnext
  · -- A zero stands alone, so a digit behind it would be outside of the number.
    have hds : ds = [] := by
      have := h.leading (by rw [hcons, hzero]; rfl)
      rw [hcons] at this
      exact (List.cons.inj this).2
    subst hds
    cases hhead : rest.head? with
    | none => simp [hhead] at hnext
    | some d =>
      have hd := hrest d hhead
      simp [hhead, hd] at hnext
  · have hds : ds = [] := by
      have := h.leading (by rw [hcons, hzero]; rfl)
      rw [hcons] at this
      exact (List.cons.inj this).2
    rw [hds, hzero]
    rfl
  · rw [hrun]

theorem readFraction_append (h : n.Proper)
    (hrest : ∀ c ∈ rest.head?, c.isDigit = false ∧ c ≠ '.') :
    readFraction (n.fraction.elim [] ('.' :: ·) ++ rest) = .ok (n.fraction, rest) := by
  cases hfraction : n.fraction with
  | none =>
    cases rest with
    | nil => rfl
    | cons c rest =>
      have hpoint := (hrest c rfl).2
      rw [Option.elim_none, List.nil_append, readFraction]
      rintro _ ⟨⟩
      exact hpoint rfl
  | some ds =>
    have hds := h.isDigit_fraction
    rw [hfraction] at hds
    have hrun : Digits.run (ds ++ rest) = (ds, rest) :=
      Digits.run_append_stop hds fun c hc => (hrest c hc).1
    obtain ⟨d, ds, rfl⟩ := List.exists_cons_of_ne_nil fun hnil =>
      h.fraction_ne_nil (hfraction.trans (congrArg some hnil))
    rw [Option.elim_some, List.cons_append, readFraction, hrun]

theorem readPower_append (power : Option ℤ) (hs : Follows s) :
    readPower (power.elim [] powerText ++ s) = .ok (power, s) := by
  cases power with
  | none =>
    cases s with
    | nil => rfl
    | cons c s =>
      obtain ⟨-, -, he, hE⟩ := hs c rfl
      exact if_neg (not_or.mpr ⟨he, hE⟩)
  | some e =>
    have hrun : Digits.run (Digits.ofNat e.natAbs ++ s) = (Digits.ofNat e.natAbs, s) :=
      Digits.run_append_stop (fun _ hc => Digits.isDigit_of_mem_ofNat hc) fun c hc => (hs c hc).1
    have hnat : Digits.toNat (Digits.ofNat e.natAbs) = e.natAbs := Digits.toNat_ofNat _
    obtain ⟨d, ds, hcons⟩ := List.exists_cons_of_ne_nil (Digits.ofNat_ne_nil e.natAbs)
    rw [Option.elim_some, powerText]
    rw [hcons] at hrun hnat ⊢
    rw [List.cons_append] at hrun
    split_ifs with he
    · have hneg : -|e| = e := by rw [abs_of_neg he, neg_neg]
      simp [readPower, hrun, hnat, hneg]
    · have hpos : |e| = e := abs_of_nonneg (not_lt.mp he)
      simp [readPower, hrun, hnat, hpos]

/-- A number is read from its digits and its power of ten, as long as the digits fit. Only one with
neither a point nor a power stays an integer. -/
theorem readNumber_text (negative : Bool) (h : n.Proper) (hs : Follows s)
    (hdigits : n.decimal.digits < 18446744073709551616) :
    readNumber negative (n.text ++ s) =
      if n.fraction.isNone ∧ n.power.isNone then .ok (integer negative n.decimal.digits, s)
      else (scaled n.decimal.digits n.decimal.exponent).map fun x => (signed negative x, s) := by
  have hpower : ∀ c ∈ (n.power.elim [] powerText ++ s).head?, c.isDigit = false ∧ c ≠ '.' := by
    intro c hc
    cases hp : n.power with
    | none =>
      rw [hp] at hc
      exact ⟨(hs c hc).1, (hs c hc).2.1⟩
    | some e =>
      rw [hp] at hc
      cases hc
      exact ⟨rfl, by decide⟩
  have hbehind : ∀ c ∈ (n.fraction.elim [] ('.' :: ·) ++ (n.power.elim [] powerText ++ s)).head?,
      c.isDigit = false := by
    intro c hc
    cases hf : n.fraction with
    | none =>
      rw [hf] at hc
      exact (hpower c hc).1
    | some ds =>
      rw [hf] at hc
      cases hc
      rfl
  have hsplit : n.decimal.digits = Digits.toNat n.whole * 10 ^ (n.fraction.getD []).length +
      Digits.toNat (n.fraction.getD []) := Digits.toNat_append _ _
  have hwhole : absorb 0 n.whole = (Digits.toNat n.whole, n.whole.length) := by
    have := Nat.le_mul_of_pos_right (Digits.toNat n.whole)
      (Nat.pow_pos (by decide) : 0 < 10 ^ (n.fraction.getD []).length)
    rw [absorb_eq (by omega), Nat.zero_mul, Nat.zero_add]
  have hfraction : absorb (Digits.toNat n.whole) (n.fraction.getD []) =
      (n.decimal.digits, (n.fraction.getD []).length) := by
    rw [absorb_eq (by omega), hsplit]
  have hexponent : (n.whole.length : ℤ) - n.whole.length - (n.fraction.getD []).length +
      n.power.getD 0 = n.decimal.exponent := by
    change _ = n.power.getD 0 - ((n.fraction.getD []).length : ℤ)
    omega
  rw [readNumber, Numeral.text, List.append_assoc, List.append_assoc, readWhole_append h hbehind]
  simp only [bind, Except.bind, readFraction_append h hpower, readPower_append n.power hs, hwhole,
    hfraction, hexponent, and_true]
  split_ifs with hplain
  · have hnone : n.fraction = none := Option.isNone_iff_eq_none.mp hplain.1
    rw [hsplit, hnone]
    simp [Digits.toNat]
    rfl
  · cases scaled n.decimal.digits n.decimal.exponent <;> rfl

end

/-! ### Values -/

theorem isSpace_of_isDigit {c : Char} (h : c.isDigit = true) : isSpace c = false := by
  have hne (d : Char) (hd : d.isDigit = false) : c ≠ d := by
    rintro rfl
    rw [h] at hd
    contradiction
  simp [isSpace, hne ' ' rfl, hne '\n' rfl, hne '\t' rfl, hne '\r' rfl]

/-- What begins with a digit is a number. -/
theorem readValue_of_isDigit {c : Char} (hc : c.isDigit = true) (depth fuel : ℕ) (s : List Char) :
    readValue depth (fuel + 1) (c :: s) = readNumber false (c :: s) := by
  have hskip : skipSpace (c :: s) = c :: s :=
    List.dropWhile_cons_of_neg (by simp [isSpace_of_isDigit hc])
  rw [readValue]
  split
  case h_1 heq => exact absurd (hskip.symm.trans heq) (List.cons_ne_nil _ _)
  case h_9 heq =>
    cases hskip.symm.trans heq
    exact if_pos hc
  all_goals
    next heq =>
    cases hskip.symm.trans heq
    exact absurd hc (by decide)

theorem readValue_natural {n : ℕ} (hn : n < 18446744073709551616) {s : List Char} (hs : Follows s)
    (depth fuel : ℕ) : readValue depth (fuel + 1) (Digits.ofNat n ++ s) = .ok (.natural n, s) := by
  have hdecimal : (Numeral.decimal ⟨Digits.ofNat n, none, none⟩).digits = n := by
    simp [Numeral.decimal]
  have hread := readNumber_text false (Numeral.proper_ofNat n) hs (by rwa [hdecimal])
  rw [hdecimal, if_pos ⟨rfl, rfl⟩] at hread
  simp only [Numeral.text, Option.elim_none, List.append_nil] at hread
  obtain ⟨c, ds, hcons⟩ := List.exists_cons_of_ne_nil (Digits.ofNat_ne_nil n)
  have hc : c.isDigit = true := Digits.isDigit_of_mem_ofNat (hcons ▸ List.mem_cons_self)
  rw [hcons, List.cons_append] at hread ⊢
  rw [readValue_of_isDigit hc, hread]
  rfl

/-- The largest double. -/
def largest : Float := Float.ofBits 0x7fefffffffffffff

theorem shortest_largest : Decimal.shortest .toEven largest = ⟨17976931348623157, 292⟩ := by
  have hmagnitude : Binary64.magnitude largest = (9007199254740991 * Nat.pow 2 971, 1) := by
    decide +kernel
  have horder : Decimal.order (9007199254740991 * Nat.pow 2 971) 1 = 308 := by
    have hlog : Nat.log 10 (9007199254740991 * Nat.pow 2 971) = 308 := by
      rw [Nat.log_eq_iff (.inl (by decide))]
      decide +kernel
    have hpos : 0 < 9007199254740991 * Nat.pow 2 971 := by
      apply Nat.pos_of_ne_zero
      intro hzero
      rw [hzero, Nat.log_zero_right] at hlog
      exact absurd hlog (by decide)
    rw [Decimal.order_eq hpos (by decide), Nat.cast_one, div_one, Int.log_natCast, hlog]
    rfl
  rw [Decimal.shortest, hmagnitude]
  simp only [horder]
  decide +kernel

/-- The decimal that is not read as a finite double is never written: the digits of the largest
double are one less. -/
theorem written_ne {x : Float} (hx : Binary64.isFinite x = true) :
    Decimal.written .toEven x ≠ (17976931348623158 : ℕ) * 10 ^ 292 := by
  intro heq
  have hbits := Decimal.roundBits_written .toEven hx
  have hlargest : Binary64.roundBits ((17976931348623158 : ℕ) * 10 ^ 292) =
      Binary64.magnitudeBits largest := by
    have hcast : ((17976931348623158 : ℕ) * 10 ^ 292 : ℚ) =
        (17976931348623158 * 10 ^ 292 : ℕ) := by
      rw [Nat.cast_mul, Nat.cast_pow, Nat.cast_ofNat, Nat.cast_ofNat]
    rw [hcast, Binary64.roundBits_natCast, Binary64.nearestBits_ends.2.2.1]
    decide
  rw [heq, hlargest] at hbits
  rw [Decimal.written] at heq
  split_ifs at heq with hzero
  · have hpos : (0 : ℚ) < (17976931348623158 : ℕ) * 10 ^ 292 := by positivity
    exact hpos.ne heq
  · have habsolute : Binary64.absolute x = largest := by
      apply Binary64.eq_of_bits
      · rw [Binary64.isNegative_absolute hx]
        decide
      · rw [Binary64.magnitudeBits_absolute hx, hbits]
    rw [habsolute, shortest_largest, Decimal.value] at heq
    have hpow : (0 : ℚ) < 10 ^ 292 := by positivity
    have hdigits : ((17976931348623157 : ℕ) : ℚ) = (17976931348623158 : ℕ) :=
      mul_right_cancel₀ hpow.ne' heq
    exact absurd (Nat.cast_injective hdigits) (by decide)

theorem text_of_not_isFinite {x : Float} (h : ¬ Binary64.isFinite x = true) :
    Style.json.text x = "null".toList := by
  rw [Style.text, Bool.eq_false_iff.mpr h]
  simp [Style.json]

/-- The text of a double shows that it is not an integer. -/
theorem exists_mem_text (x : Float) : ∃ c ∈ Style.json.text x, c.isDigit = false ∧ c ≠ '+' := by
  by_cases hx : Binary64.isFinite x = true
  · obtain ⟨n, -, htext, -, hmarked, -⟩ := Style.json.exists_numeral hx
    have hmem (c : Char) (h : c ∈ n.text) : c ∈ Style.json.text x := by
      rw [htext]
      split_ifs
      · exact List.mem_cons_of_mem _ h
      · exact h
    rcases hmarked rfl with hfraction | hpower
    · obtain ⟨ds, hds⟩ := Option.ne_none_iff_exists'.mp hfraction
      exact ⟨'.', hmem _ (by simp [Numeral.text, hds]), rfl, by decide⟩
    · obtain ⟨e, he⟩ := Option.ne_none_iff_exists'.mp hpower
      exact ⟨'e', hmem _ (by simp [Numeral.text, Numeral.powerText, he]), rfl, by decide⟩
  · rw [text_of_not_isFinite hx]
    exact ⟨'n', by decide, rfl, by decide⟩

/-- What is written for a number has at most 53 bits of digits and a power of ten that a double
holds exactly. -/
def Short (x : Float) : Prop :=
  ∃ d, Number.readMagnitude (Digits.splitSign (Style.json.text x)).2 = some d ∧
    d.digits < 9007199254740992 ∧ -22 ≤ d.exponent ∧ d.exponent ≤ 22

/-- A finite double is read back from its text as a finite double, and as itself if it is short. -/
theorem exists_readValue_text {x : Float} (hx : Binary64.isFinite x = true) :
    ∃ y, Binary64.isFinite y = true ∧ (Short x → y = x) ∧ ∀ depth fuel s, Follows s →
      readValue depth (fuel + 1) (Style.json.text x ++ s) = .ok (.double y, s) := by
  obtain ⟨n, hproper, htext, hvalue, hmarked, hlength⟩ := Style.json.exists_numeral hx
  have hdigits : n.decimal.digits < 10 ^ 17 := by
    apply hlength
    intro e he
    exact of_decide_eq_true (Bool.and_eq_true_iff.mp he).2
  have hbits : Binary64.roundBits n.decimal.value = Binary64.magnitudeBits x := by
    rw [hvalue, Decimal.roundBits_written _ hx]
  obtain ⟨y, hscaled, hfinite⟩ : ∃ y,
      scaled n.decimal.digits n.decimal.exponent = .ok y ∧ Binary64.isFinite y = true := by
    apply scaled_isFinite hdigits
    · exact hbits ▸ Binary64.isFinite_iff.mp hx
    · exact fun heq => written_ne hx (hvalue.symm.trans heq)
  refine ⟨if Binary64.isNegative x then Binary64.negate y else y, ?_, ?_, ?_⟩
  · split_ifs
    · exact Binary64.isFinite_negate hfinite
    · exact hfinite
  · rintro ⟨d, hd, hfew, hlow, hhigh⟩
    rw [htext, Number.splitSign_text hproper, Numeral.readMagnitude_text hproper] at hd
    obtain rfl := Option.some.inj hd
    rw [scaled_eq_rounded hfew hlow hhigh] at hscaled
    obtain rfl := Except.ok.inj hscaled
    apply Binary64.eq_of_bits
    · split_ifs with hsign
      · rw [Binary64.negate_rounded hfinite, Binary64.isNegative_rounded, hsign]
      · rw [Binary64.isNegative_rounded, Bool.eq_false_iff.mpr hsign]
    · rw [← hbits]
      split_ifs
      · rw [Binary64.negate_rounded hfinite, Binary64.magnitudeBits_rounded]
        rfl
      · exact Binary64.magnitudeBits_rounded _ _
  · intro depth fuel s hs
    have hread := readNumber_text (Binary64.isNegative x) hproper hs (hdigits.trans (by decide))
    rw [if_neg (not_and_or.mpr ((hmarked rfl).imp (by simp) (by simp))), hscaled] at hread
    rw [htext]
    cases hsign : Binary64.isNegative x with
    | true =>
      rw [hsign] at hread
      exact hread
    | false =>
      rw [hsign] at hread
      obtain ⟨c, hhead, hc⟩ := Number.exists_head?_text hproper
      obtain ⟨rest, hcons⟩ : ∃ rest, n.text = c :: rest := by
        obtain ⟨rest, h⟩ := List.head?_eq_some_iff.mp hhead
        exact ⟨rest, h⟩
      rw [hcons, List.cons_append] at hread
      simp only [Bool.false_eq_true, if_false]
      rw [hcons, List.cons_append, readValue_of_isDigit hc, hread]
      rfl

end LabelFleet.Json
