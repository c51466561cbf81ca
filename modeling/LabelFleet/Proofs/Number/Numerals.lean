import LabelFleet.Number.Read
import LabelFleet.Number.Style
import LabelFleet.Proofs.Number.Shortest

/-! Numbers in decimal writing. A finite double is written as a numeral, and read back from it. -/
namespace LabelFleet

namespace Digits

theorem toNat_append (ds es : List Char) :
    toNat (ds ++ es) = toNat ds * 10 ^ es.length + toNat es := by
  induction es using List.reverseRecOn with
  | nil => simp [toNat]
  | append_singleton es e ih =>
    rw [← List.append_assoc, toNat_concat, toNat_concat, ih, List.length_append,
      List.length_singleton, pow_succ]
    ring

theorem toNat_replicate (k : ℕ) : toNat (List.replicate k '0') = 0 := by
  induction k with
  | zero => rfl
  | succ k ih =>
    rw [List.replicate_succ', toNat_concat, ih]
    rfl

end Digits

/-- A number as it is written: digits, perhaps more of them behind a point, and perhaps a power of
ten. -/
structure Numeral where
  whole : List Char
  fraction : Option (List Char)
  power : Option ℤ

namespace Numeral

/-- The power of ten behind the digits; its sign is always written. -/
def powerText (e : ℤ) : List Char :=
  'e' :: (if e < 0 then '-' else '+') :: Digits.ofNat e.natAbs

def text (n : Numeral) : List Char :=
  n.whole ++ (n.fraction.elim [] ('.' :: ·) ++ n.power.elim [] powerText)

/-- What is written. -/
def decimal (n : Numeral) : Decimal :=
  ⟨Digits.toNat (n.whole ++ n.fraction.getD []), n.power.getD 0 - (n.fraction.getD []).length⟩

/-- There are digits in front, which begin with a zero only where it stands alone, and behind a
point if there is one. -/
structure Proper (n : Numeral) : Prop where
  whole_ne_nil : n.whole ≠ []
  isDigit_whole : ∀ c ∈ n.whole, c.isDigit = true
  leading : n.whole.head? = some '0' → n.whole = ['0']
  fraction_ne_nil : n.fraction ≠ some []
  isDigit_fraction : ∀ c ∈ n.fraction.getD [], c.isDigit = true

/-- The numeral is proper, and what is written has the value of a decimal. -/
structure Writes (n : Numeral) (d : Decimal) : Prop where
  proper : n.Proper
  value : n.decimal.value = d.value

/-! ### How decimals are written -/

/-- Digits of which the first is not a zero. -/
structure Leading (ds : List Char) : Prop where
  ne_nil : ds ≠ []
  isDigit : ∀ c ∈ ds, c.isDigit = true
  head?_ne : ds.head? ≠ some '0'

theorem leading_ofNat {n : ℕ} (h : 0 < n) : Leading (Digits.ofNat n) :=
  ⟨Digits.ofNat_ne_nil n, fun _ hc => Digits.isDigit_of_mem_ofNat hc, Digits.head?_ofNat h⟩

theorem isDigit_of_mem_replicate {k : ℕ} {c : Char} (h : c ∈ List.replicate k '0') :
    c.isDigit = true := by
  rw [(List.mem_replicate.mp h).2]
  rfl

variable {ds : List Char}

/-- Digits with zeros behind them are a whole number, with or without a point. -/
theorem writes_whole (h : Leading ds) (k : ℕ) (fraction : Option (List Char))
    (hfraction : fraction = none ∨ fraction = some ['0']) :
    Writes ⟨ds ++ List.replicate k '0', fraction, none⟩ ⟨Digits.toNat ds, k⟩ := by
  obtain ⟨d, rest, rfl⟩ := List.exists_cons_of_ne_nil h.ne_nil
  have hhead : d ≠ '0' := fun heq => h.head?_ne (congrArg some heq)
  have hwhole : ∀ c ∈ d :: rest ++ List.replicate k '0', c.isDigit = true := by
    intro c hc
    exact (List.mem_append.mp hc).elim (h.isDigit c) isDigit_of_mem_replicate
  have hnat : Digits.toNat (d :: rest ++ List.replicate k '0') =
      Digits.toNat (d :: rest) * 10 ^ k := by
    rw [Digits.toNat_append, Digits.toNat_replicate, List.length_replicate, Nat.add_zero]
  rcases hfraction with rfl | rfl
  · refine ⟨⟨by simp, hwhole, by simp [hhead], by simp, by simp⟩, ?_⟩
    simp only [decimal, Option.getD_none, List.append_nil, hnat, Decimal.value]
    simp
  · refine ⟨⟨by simp, hwhole, by simp [hhead], by simp, by simp⟩, ?_⟩
    have hzero : Digits.toNat ['0'] = 0 := rfl
    simp only [decimal, Option.getD_none, Option.getD_some, Digits.toNat_append, hnat, hzero,
      Decimal.value]
    simp

/-- A point may stand between digits. -/
theorem writes_split (h : Leading ds) {k : ℕ} (hk : 0 < k) (hk' : k < ds.length) :
    Writes ⟨ds.take k, some (ds.drop k), none⟩ ⟨Digits.toNat ds, k - ds.length⟩ := by
  obtain ⟨d, rest, rfl⟩ := List.exists_cons_of_ne_nil h.ne_nil
  obtain ⟨k, rfl⟩ := Nat.exists_eq_add_one_of_ne_zero hk.ne'
  have hhead : d ≠ '0' := fun heq => h.head?_ne (congrArg some heq)
  refine ⟨⟨by simp, fun c hc => h.isDigit c (List.mem_of_mem_take hc), by simp [hhead], ?_,
    fun c hc => h.isDigit c (List.mem_of_mem_drop hc)⟩, ?_⟩
  · rw [ne_eq, Option.some_inj, List.drop_eq_nil_iff]
    omega
  · simp only [decimal, Option.getD_none, Option.getD_some, List.take_append_drop, Decimal.value]
    congr 2
    rw [List.length_drop]
    omega

/-- Zeros may stand between the point and the digits. -/
theorem writes_small (h : Leading ds) (k : ℕ) :
    Writes ⟨['0'], some (List.replicate k '0' ++ ds), none⟩
      ⟨Digits.toNat ds, -(k + ds.length : ℕ)⟩ := by
  refine ⟨⟨by simp, by simp, by simp, ?_, ?_⟩, ?_⟩
  · rw [ne_eq, Option.some_inj, List.append_eq_nil_iff, not_and]
    exact fun _ => h.ne_nil
  · intro c hc
    exact (List.mem_append.mp hc).elim isDigit_of_mem_replicate (h.isDigit c)
  · have hzero : Digits.toNat ['0'] = 0 := rfl
    simp only [decimal, Option.getD_none, Option.getD_some, Digits.toNat_append,
      Digits.toNat_replicate, hzero, Decimal.value]
    simp

/-- One digit may stand in front of the point if a power of ten makes up for the others. -/
theorem writes_exponential (h : Leading ds) (e : ℤ) :
    Writes ⟨ds.take 1, if ds.length ≤ 1 then none else some (ds.drop 1),
      some ((ds.length : ℤ) - 1 + e)⟩ ⟨Digits.toNat ds, e⟩ := by
  obtain ⟨d, rest, rfl⟩ := List.exists_cons_of_ne_nil h.ne_nil
  have hhead : d ≠ '0' := fun heq => h.head?_ne (congrArg some heq)
  have hd : d.isDigit = true := h.isDigit d List.mem_cons_self
  cases rest with
  | nil =>
    refine ⟨⟨by simp, by simpa using hd, by simp [hhead], by simp, by simp⟩, ?_⟩
    simp [decimal, Decimal.value]
  | cons f rest =>
    refine ⟨⟨by simp, by simpa using hd, by simp [hhead], by simp, ?_⟩, ?_⟩
    · intro c hc
      exact h.isDigit c (List.mem_cons_of_mem d (by simpa using hc))
    · simp [decimal, Decimal.value]

/-- Whether the text shows that the number need not be whole. -/
def Marked (n : Numeral) : Prop := n.fraction ≠ none ∨ n.power ≠ none

theorem exists_positionalText (h : Leading ds) (pointKept : Bool) (e : ℤ) :
    ∃ n : Numeral, n.Writes ⟨Digits.toNat ds, e⟩ ∧
      n.text = Style.positionalText pointKept ds e ∧ (pointKept = true → n.Marked) ∧
      n.decimal.digits ≤ Digits.toNat ds * 10 ^ (e + 1).toNat := by
  rw [Style.positionalText]
  by_cases he : 0 ≤ e
  · obtain ⟨k, rfl⟩ := Int.eq_ofNat_of_zero_le he
    rw [if_pos he]
    refine ⟨_, writes_whole h k (if pointKept then some ['0'] else none) ?_, ?_, ?_, ?_⟩
    · cases pointKept <;> simp
    · cases pointKept <;> simp [text]
    · rintro rfl
      exact .inl (by simp)
    · have hexp : ((k : ℤ) + 1).toNat = k + 1 := by omega
      have hzero : Digits.toNat ['0'] = 0 := rfl
      rw [hexp, pow_succ, ← Nat.mul_assoc]
      cases pointKept
      · simp [decimal, Digits.toNat_append, Digits.toNat_replicate]
        omega
      · simp [decimal, Digits.toNat_append, Digits.toNat_replicate, hzero, pow_succ, Nat.mul_assoc]
  · have hexp : (e + 1).toNat = 0 := by omega
    rw [if_neg he, hexp, pow_zero, Nat.mul_one]
    simp only
    split_ifs with hwhole
    · obtain ⟨k, hk⟩ : ∃ k : ℕ, (ds.length : ℤ) + e = k := ⟨_, (Int.toNat_of_nonneg hwhole.le).symm⟩
      have hvalue : e = k - ds.length := by omega
      rw [hk, Int.toNat_natCast, hvalue]
      exact ⟨_, writes_split h (by omega) (by omega), by simp [text], fun _ => .inl (by simp),
        by simp [decimal]⟩
    · obtain ⟨k, hk⟩ : ∃ k : ℕ, -((ds.length : ℤ) + e) = k := ⟨_, (Int.toNat_of_nonneg (by omega)).symm⟩
      have hvalue : e = -(k + ds.length : ℕ) := by
        push_cast
        omega
      have hzero : Digits.toNat ['0'] = 0 := rfl
      rw [hk, Int.toNat_natCast, hvalue]
      refine ⟨_, writes_small h k, by simp [text], fun _ => .inl (by simp), ?_⟩
      simp only [decimal, Option.getD_some, Digits.toNat_append, Digits.toNat_replicate, hzero]
      simp

theorem exists_exponentText (h : Leading ds) (e : ℤ) :
    ∃ n : Numeral, n.Writes ⟨Digits.toNat ds, e⟩ ∧ n.text = Style.exponentText ds e ∧ n.Marked ∧
      n.decimal.digits = Digits.toNat ds := by
  refine ⟨_, writes_exponential h e, ?_, .inr (by simp), ?_⟩
  · obtain ⟨d, rest, rfl⟩ := List.exists_cons_of_ne_nil h.ne_nil
    cases rest with
    | nil => simp [Style.exponentText, text, powerText]
    | cons f rest => simp [Style.exponentText, text, powerText]
  · obtain ⟨d, rest, rfl⟩ := List.exists_cons_of_ne_nil h.ne_nil
    cases rest with
    | nil => simp [decimal]
    | cons f rest => simp [decimal]

end Numeral

namespace Decimal

open Binary64 (roundBits magnitudeBits absolute)

/-- The number that is written for a double, without its sign. -/
def written (tie : Tie) (x : Float) : ℚ :=
  if Binary64.significand x = 0 then 0 else (shortest tie (absolute x)).value

variable {x : Float}

theorem shortest_absolute (tie : Tie) (h : Binary64.isFinite x = true)
    (hzero : Binary64.significand x ≠ 0) :
    0 < (shortest tie (absolute x)).digits ∧ (shortest tie (absolute x)).digits < 10 ^ 17 ∧
      roundBits (shortest tie (absolute x)).value = magnitudeBits x := by
  have hbits := Binary64.magnitudeBits_absolute h
  have hfinite : Binary64.isFinite (absolute x) = true := by
    rwa [Binary64.isFinite_iff, hbits, ← Binary64.isFinite_iff]
  rw [← hbits]
  apply shortest_spec tie hfinite (Binary64.isNegative_absolute h)
  rw [Binary64.value_congr hbits]
  exact Binary64.value_pos_iff.mpr hzero

theorem roundBits_written (tie : Tie) (h : Binary64.isFinite x = true) :
    roundBits (written tie x) = magnitudeBits x := by
  rw [written]
  split_ifs with hzero
  · rw [Binary64.significand_eq_zero_iff.mp hzero]
    exact if_pos le_rfl
  · exact (shortest_absolute tie h hzero).2.2

end Decimal

namespace Style

open Binary64 (absolute)

/-- The text of a positive double. Its numeral has more digits than the decimal only if zeros are
written before the point. -/
theorem exists_positiveText (style : Style) {x : Float} {d : Decimal}
    (hd : Decimal.shortest style.tie x = d) (hpos : 0 < d.digits) (hlt : d.digits < 10 ^ 17) :
    ∃ n : Numeral, n.Writes d ∧ n.text = style.positiveText x ∧
      (style.pointKept = true → n.Marked) ∧
      ((∀ e, style.positional e = true → e ≤ 15) → n.decimal.digits < 10 ^ 17) := by
  have hleading := Numeral.leading_ofNat hpos
  have hnat : Digits.toNat (Digits.ofNat d.digits) = d.digits := Digits.toNat_ofNat _
  rw [positiveText, hd]
  split_ifs with hpositional
  · obtain ⟨n, hwrites, htext, hmarked, hdigits⟩ :=
      Numeral.exists_positionalText hleading style.pointKept d.exponent
    rw [hnat] at hwrites hdigits
    refine ⟨n, hwrites, htext, hmarked, ?_⟩
    intro hbound
    have htop := hbound _ hpositional
    rw [Decimal.length_ofNat] at htop
    rcases Nat.eq_zero_or_pos (d.exponent + 1).toNat with hzero | hzeros
    · rw [hzero, pow_zero, Nat.mul_one] at hdigits
      exact hdigits.trans_lt hlt
    · calc
        n.decimal.digits ≤ d.digits * 10 ^ (d.exponent + 1).toNat := hdigits
        _ < 10 ^ (Nat.log 10 d.digits + 1) * 10 ^ (d.exponent + 1).toNat :=
          Nat.mul_lt_mul_of_pos_right (Nat.lt_pow_succ_log_self (by decide) _)
            (Nat.pow_pos (by decide))
        _ = 10 ^ (Nat.log 10 d.digits + 1 + (d.exponent + 1).toNat) := (pow_add _ _ _).symm
        _ ≤ 10 ^ 17 := Nat.pow_le_pow_right (by decide) (by omega)
  · obtain ⟨n, hwrites, htext, hmarked, hdigits⟩ :=
      Numeral.exists_exponentText hleading d.exponent
    rw [hnat] at hwrites hdigits
    exact ⟨n, hwrites, htext, fun _ => hmarked, fun _ => hdigits ▸ hlt⟩

/-- A finite double is written as a numeral with its sign. What is written is its shortest decimal,
in at most seventeen digits if powers of ten are set apart from the sixteenth place on. -/
theorem exists_numeral (style : Style) {x : Float} (h : Binary64.isFinite x = true) :
    ∃ n : Numeral, n.Proper ∧
      style.text x = (if Binary64.isNegative x then '-' :: n.text else n.text) ∧
      n.decimal.value = Decimal.written style.tie x ∧
      (style.pointKept = true → n.Marked) ∧
      ((∀ e, style.positional e = true → e ≤ 15) → n.decimal.digits < 10 ^ 17) := by
  have hnumber : Binary64.isNaN x = false := by
    rw [Binary64.isFinite, bne_iff_ne] at h
    rw [Binary64.isNaN, beq_false_of_ne h, Bool.false_and]
  have htext (body : List Char) (hbody : (if Binary64.significand x = 0 then
      positionalText style.pointKept ['0'] 0 else positiveText style (absolute x)) = body) :
      style.text x = if Binary64.isNegative x then '-' :: body else body := by
    rw [← hbody, text, hnumber, h]
    rfl
  by_cases hzero : Binary64.significand x = 0
  · -- A zero is written alone.
    refine ⟨⟨['0'], if style.pointKept then some ['0'] else none, none⟩, ?_, ?_, ?_, ?_, ?_⟩
    · cases style.pointKept <;> exact ⟨by simp, by simp, by simp, by simp, by simp⟩
    · apply htext
      rw [if_pos hzero]
      cases style.pointKept <;> rfl
    · rw [Decimal.written, if_pos hzero]
      cases style.pointKept <;> simp [Numeral.decimal, Decimal.value, Digits.toNat, Digits.value]
    · intro hpoint
      exact .inl (by simp [hpoint])
    · intro _
      cases style.pointKept <;> simp [Numeral.decimal, Digits.toNat, Digits.value]
  · obtain ⟨hdigits, hlt, -⟩ := Decimal.shortest_absolute style.tie h hzero
    obtain ⟨n, hwrites, hn, hmarked, hbound⟩ := exists_positiveText style rfl hdigits hlt
    refine ⟨n, hwrites.proper, ?_, ?_, hmarked, hbound⟩
    · apply htext
      rw [if_neg hzero, hn]
    · rw [Decimal.written, if_neg hzero, hwrites.value]

end Style

namespace Numeral

/-- The numeral of a whole number. -/
theorem proper_ofNat (n : ℕ) : Proper ⟨Digits.ofNat n, none, none⟩ := by
  refine ⟨Digits.ofNat_ne_nil n, fun _ hc => Digits.isDigit_of_mem_ofNat hc, ?_, by simp, by simp⟩
  intro hhead
  rcases Nat.eq_zero_or_pos n with rfl | hpos
  · exact Digits.ofNat_of_lt (by decide)
  · exact absurd hhead (Digits.head?_ofNat hpos)

/-! ### How numerals are read -/

theorem readPower_powerText (e : ℤ) : Number.readPower (powerText e) = some e := by
  have hdigits : (Digits.ofNat e.natAbs).all Char.isDigit = true :=
    List.all_eq_true.mpr fun _ hc => Digits.isDigit_of_mem_ofNat hc
  have hempty : (Digits.ofNat e.natAbs).isEmpty = false :=
    List.isEmpty_eq_false_iff.mpr (Digits.ofNat_ne_nil _)
  rw [powerText]
  split_ifs with he
  · simp [Number.readPower, Digits.splitSign, hdigits, hempty, abs_of_neg he]
  · simp [Number.readPower, Digits.splitSign, hdigits, hempty, abs_of_nonneg (not_lt.mp he)]

/-- No digit stands where the digits end. -/
theorem head?_power {power : Option ℤ} {c : Char} (h : c ∈ (power.elim [] powerText).head?) :
    c.isDigit = false := by
  cases power with
  | none => contradiction
  | some e =>
    cases h
    rfl

theorem head?_behind {n : Numeral} {c : Char}
    (h : c ∈ (n.fraction.elim [] ('.' :: ·) ++ n.power.elim [] powerText).head?) :
    c.isDigit = false := by
  cases hfraction : n.fraction with
  | none =>
    rw [hfraction] at h
    exact head?_power h
  | some ds =>
    rw [hfraction] at h
    cases h
    rfl

theorem run_text {n : Numeral} (h : n.Proper) : Digits.run n.text =
    (n.whole, n.fraction.elim [] ('.' :: ·) ++ n.power.elim [] powerText) :=
  Digits.run_append_stop h.isDigit_whole fun _ hc => head?_behind hc

theorem readMagnitude_text {n : Numeral} (h : n.Proper) :
    Number.readMagnitude n.text = some n.decimal := by
  have hempty : n.whole.isEmpty = false := List.isEmpty_eq_false_iff.mpr h.whole_ne_nil
  rw [Number.readMagnitude, run_text h]
  cases hfraction : n.fraction with
  | none =>
    cases hpower : n.power with
    | none => simp [hempty, decimal, hfraction, hpower, Number.readPower]
    | some e =>
      have hread := readPower_powerText e
      simp only [powerText] at hread
      simp [powerText, hempty, hread, decimal, hfraction, hpower]
  | some ds =>
    have hds : ∀ c ∈ ds, c.isDigit = true := by
      have := h.isDigit_fraction
      rwa [hfraction] at this
    have hrun : Digits.run (ds ++ n.power.elim [] powerText) = (ds, n.power.elim [] powerText) :=
      Digits.run_append_stop hds fun _ hc => head?_power hc
    have hread : Number.readPower (n.power.elim [] powerText) = some (n.power.getD 0) := by
      cases n.power with
      | none => rfl
      | some e => exact readPower_powerText e
    simp [hrun, hempty, hread, decimal, hfraction]

end Numeral

namespace Number

open Binary64 (roundBits magnitudeBits)

/-- What begins with a digit is no word. -/
theorem read_of_isDigit {negative : Bool} {s body : List Char} {d : Decimal} {c : Char}
    (hsign : Digits.splitSign s = (negative, body)) (hhead : body.head? = some c)
    (hc : c.isDigit = true) (hd : readMagnitude body = some d) :
    read s = .ok (Decimal.nearest negative d) := by
  have hne : s.isEmpty = false := by
    cases s with
    | nil =>
      cases hsign
      contradiction
    | cons _ _ => rfl
  obtain ⟨rest, rfl⟩ : ∃ rest, body = c :: rest := by
    cases body with
    | nil => contradiction
    | cons c' rest =>
      cases hhead
      exact ⟨rest, rfl⟩
  have hlower : c.toLower ≠ 'i' ∧ c.toLower ≠ 'n' := by
    rw [Text.isDigit_iff] at hc
    have hupper : ¬ c.isUpper = true := by
      rw [Text.isUpper_iff]
      omega
    have hsame : c.toLower = c := dif_neg (mt decide_eq_true hupper)
    rw [hsame]
    constructor <;> rintro rfl <;> exact absurd hc (by decide)
  rw [read, hne, hsign]
  simp [hd, hlower]

theorem splitSign_of_isDigit {s : List Char} {c : Char} (h : s.head? = some c)
    (hc : c.isDigit = true) : Digits.splitSign s = (false, s) := by
  obtain ⟨rest, rfl⟩ : ∃ rest, s = c :: rest := by
    cases s with
    | nil => contradiction
    | cons d rest =>
      cases h
      exact ⟨rest, rfl⟩
  rw [Digits.splitSign]
  · rintro _ ⟨⟩
    exact absurd hc (by decide)
  · rintro _ ⟨⟩
    exact absurd hc (by decide)

/-- A proper numeral begins with a digit. -/
theorem exists_head?_text {n : Numeral} (h : n.Proper) :
    ∃ c, n.text.head? = some c ∧ c.isDigit = true := by
  obtain ⟨c, rest, hcons⟩ := List.exists_cons_of_ne_nil h.whole_ne_nil
  refine ⟨c, ?_, h.isDigit_whole c (hcons ▸ List.mem_cons_self)⟩
  rw [Numeral.text, hcons]
  rfl

theorem splitSign_text {n : Numeral} (h : n.Proper) (negative : Bool) :
    Digits.splitSign (if negative then '-' :: n.text else n.text) = (negative, n.text) := by
  obtain ⟨c, hhead, hc⟩ := exists_head?_text h
  cases negative with
  | true => rfl
  | false => exact splitSign_of_isDigit hhead hc

/-- A finite double is read back from its text, in every style. -/
theorem read_text (style : Style) {x : Float} (h : Binary64.isFinite x = true) :
    read (style.text x) = .ok x := by
  obtain ⟨n, hproper, htext, hvalue, -⟩ := style.exists_numeral h
  obtain ⟨c, hhead, hc⟩ := exists_head?_text hproper
  have hsign : Digits.splitSign (style.text x) = (Binary64.isNegative x, n.text) := by
    rw [htext, splitSign_text hproper]
  rw [read_of_isDigit hsign hhead hc (Numeral.readMagnitude_text hproper), Decimal.nearest_eq]
  have hbits : roundBits n.decimal.value = magnitudeBits x := by
    rw [hvalue, Decimal.roundBits_written style.tie h]
  rw [Binary64.eq_of_bits (Binary64.isNegative_rounded _ _)
    ((Binary64.magnitudeBits_rounded _ _).trans hbits)]

/-- The digits of an integer are read as the double nearest to it. -/
theorem read_ofNat (negative : Bool) (n : ℕ) :
    read (if negative then '-' :: Digits.ofNat n else Digits.ofNat n) =
      .ok (Decimal.nearest negative ⟨n, 0⟩) := by
  have hproper := Numeral.proper_ofNat n
  obtain ⟨c, hhead, hc⟩ := exists_head?_text hproper
  have hmagnitude := Numeral.readMagnitude_text hproper
  have hsign := splitSign_text hproper negative
  have hdecimal : Numeral.decimal ⟨Digits.ofNat n, none, none⟩ = ⟨n, 0⟩ := by
    simp [Numeral.decimal]
  rw [hdecimal] at hmagnitude
  simp only [Numeral.text, Option.elim_none, List.append_nil] at hhead hmagnitude hsign
  exact read_of_isDigit hsign hhead hc hmagnitude

end Number

end LabelFleet
