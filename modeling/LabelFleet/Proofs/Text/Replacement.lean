import LabelFleet.Proofs.Text.Encoding
import Mathlib.Data.List.Infix

/-! Bytes that are read as well as they can be read. A byte below 128 is a character by itself
wherever it stands, and no other bytes are read as such a character, so a part made of these
characters stands in the text exactly where its bytes stand. -/
namespace LabelFleet.Utf8

/-- The text read from bytes, where a character of several bytes may have begun in front of them. -/
def shownFrom (begun : Option Begun) (bytes : List UInt8) : List Char :=
  (piecesFrom begun bytes).map Piece.shown

/-- What one more byte adds to the text. -/
def stepShown (b : Nat) (begun : Option Begun) : List Char := (step b begun).1.map Piece.shown

theorem shownFrom_cons (begun : Option Begun) (b : UInt8) (bs : List UInt8) :
    shownFrom begun (b :: bs) =
      stepShown b.toNat begun ++ shownFrom (step b.toNat begun).2 bs := List.map_append

/-- A character that takes one byte. The null character is left out, since it also stands for the
numbers that are no characters. -/
def Plain (c : Char) : Prop := 0 < c.toNat ∧ c.toNat < 0x80

instance : DecidablePred Plain := fun _ => inferInstanceAs (Decidable (_ ∧ _))

theorem not_plain_replacement : ¬ Plain replacement := by decide

theorem toNat_charOfNat {n : Nat} (h : n.isValidChar) : (Char.ofNat n).toNat = n := by
  rw [Char.ofNat, dif_pos h]
  rfl

theorem not_plain_ofNat {n : Nat} (h : 0x80 ≤ n) : ¬ Plain (Char.ofNat n) := by
  rintro ⟨hpos, hlt⟩
  by_cases hvalid : n.isValidChar
  · rw [toNat_charOfNat hvalid] at hlt
    omega
  · rw [Char.ofNat, dif_neg hvalid] at hpos
    exact absurd hpos (by decide)

/-! ### Characters of several bytes -/

/-- What has begun becomes no plain character: it has too many bits, or the bounds of the next byte
make up for them. -/
structure Begun.Wide (s : Begun) : Prop where
  low_le : 0x80 ≤ s.low
  high_le : s.high ≤ 0xBF
  bits_le : 2 ≤ s.bits ∨ s.missing ≠ 1 ∧ (1 ≤ s.bits ∨ 0x90 ≤ s.low)

variable {begun : Option Begun} {b : Nat}

theorem start_of_ge (hb : 0x80 ≤ b) :
    (∀ c ∈ (start b).1.map Piece.shown, ¬ Plain c) ∧ ∀ s ∈ (start b).2, s.Wide := by
  rw [start, if_neg (by omega)]
  by_cases htwo : 0xC2 ≤ b ∧ b ≤ 0xDF
  · rw [if_pos htwo]
    refine ⟨by simp, ?_⟩
    rintro s ⟨⟩
    exact ⟨Nat.le_refl _, Nat.le_refl _, .inl (by dsimp only; omega)⟩
  rw [if_neg htwo]
  by_cases hthree : 0xE0 ≤ b ∧ b ≤ 0xEF
  · rw [if_pos hthree]
    refine ⟨by simp, ?_⟩
    rintro s ⟨⟩
    refine ⟨?_, ?_, .inr ⟨by simp, ?_⟩⟩ <;> dsimp only <;> split <;> omega
  rw [if_neg hthree]
  by_cases hfour : 0xF0 ≤ b ∧ b ≤ 0xF4
  · rw [if_pos hfour]
    refine ⟨by simp, ?_⟩
    rintro s ⟨⟩
    refine ⟨?_, ?_, .inr ⟨by simp, ?_⟩⟩ <;> dsimp only <;> split <;> omega
  · rw [if_neg hfour]
    simp [Piece.shown, not_plain_replacement]

/-- A byte of 128 or more adds no plain character. -/
theorem step_of_ge (hbegun : ∀ s ∈ begun, s.Wide) (hb : 0x80 ≤ b) :
    (∀ c ∈ stepShown b begun, ¬ Plain c) ∧ ∀ s ∈ (step b begun).2, s.Wide := by
  cases begun with
  | none => exact start_of_ge hb
  | some s =>
    obtain ⟨hshown, hwide⟩ := start_of_ge hb
    have hhigh := (hbegun s rfl).high_le
    have hbits := (hbegun s rfl).bits_le
    unfold stepShown step
    dsimp only
    split_ifs with hrange hlast
    · refine ⟨?_, by simp⟩
      simpa [Piece.shown] using not_plain_ofNat (n := 64 * s.bits + b % 64) (by omega)
    · refine ⟨by simp, ?_⟩
      rintro t ⟨⟩
      exact ⟨Nat.le_refl _, Nat.le_refl _, .inl (by dsimp only; omega)⟩
    · refine ⟨?_, hwide⟩
      simpa [Piece.shown, not_plain_replacement] using hshown

/-- A byte below 128 ends what has begun and is a character by itself. -/
theorem step_of_lt (hbegun : ∀ s ∈ begun, s.Wide) (hb : b < 0x80) :
    stepShown b begun = shownFrom begun [] ++ [Char.ofNat b] ∧ (step b begun).2 = none := by
  cases begun with
  | none =>
    rw [stepShown, step, start_one hb]
    exact ⟨rfl, rfl⟩
  | some s =>
    have hlow := (hbegun s rfl).low_le
    rw [stepShown, step, if_neg (by omega), start_one hb]
    exact ⟨rfl, rfl⟩

theorem wide_step (hbegun : ∀ s ∈ begun, s.Wide) (b : Nat) : ∀ s ∈ (step b begun).2, s.Wide := by
  rcases Nat.lt_or_ge b 0x80 with hb | hb
  · simp [(step_of_lt hbegun hb).2]
  · exact (step_of_ge hbegun hb).2

theorem not_plain_of_mem_shownFrom_nil {c : Char} (h : c ∈ shownFrom begun []) : ¬ Plain c := by
  cases begun with
  | none => cases h
  | some s =>
    obtain rfl := List.mem_singleton.mp h
    exact not_plain_replacement

/-- A byte that adds nothing to the text begins or continues a character. -/
theorem isSome_step (hbegun : ∀ s ∈ begun, s.Wide) (h : stepShown b begun = []) :
    (step b begun).2.isSome := by
  rcases Nat.lt_or_ge b 0x80 with hb | hb
  · simp [(step_of_lt hbegun hb).1] at h
  · cases begun with
    | none =>
      change (start b).1.map Piece.shown = [] at h
      change (start b).2.isSome
      rw [start, if_neg (by omega)] at h ⊢
      split_ifs at h ⊢ <;> first | rfl | cases h
    | some s =>
      unfold stepShown step at h
      unfold step
      dsimp only at h ⊢
      split_ifs at h ⊢ <;> first | rfl | cases h

theorem eq_nil_of_shownFrom_eq_nil (hbegun : ∀ s ∈ begun, s.Wide) {bytes : List UInt8}
    (h : shownFrom begun bytes = []) : bytes = [] ∧ begun = none := by
  induction bytes generalizing begun with
  | nil =>
    cases begun with
    | none => exact ⟨rfl, rfl⟩
    | some s => cases h
  | cons b bytes ih =>
    rw [shownFrom_cons, List.append_eq_nil_iff] at h
    have hsome := isSome_step hbegun h.1
    rw [(ih (wide_step hbegun b.toNat) h.2).2] at hsome
    cases hsome

/-! ### Plain characters -/

/-- The byte of a plain character. -/
def byte (c : Char) : UInt8 := UInt8.ofNat c.toNat

theorem toNat_byte_of_plain {c : Char} (hc : Plain c) : (byte c).toNat = c.toNat :=
  toNat_byte (Nat.lt_trans hc.2 (by decide))

theorem byte_ofNat {b : UInt8} (hb : b.toNat < 0x80) : byte (Char.ofNat b.toNat) = b := by
  rw [byte, toNat_charOfNat (.inl (Nat.lt_trans hb (by decide))), UInt8.ofNat_toNat]

theorem encode_cons_of_plain {c : Char} (hc : Plain c) (s : List Char) :
    encode (c :: s) = byte c :: encode s := by
  have hval : c.val.toNat ≤ 0x7f := Nat.le_of_lt_succ hc.2
  have hone : String.utf8EncodeChar c = [byte c] := by
    simp only [String.utf8EncodeChar, if_pos hval]
    rfl
  rw [encode, List.flatMap_cons, hone]
  rfl

/-- The bytes around a plain character are read by themselves. -/
theorem shownFrom_append_cons (hbegun : ∀ s ∈ begun, s.Wide) {c : Char} (hc : Plain c)
    (front rest : List UInt8) :
    shownFrom begun (front ++ byte c :: rest) = shownFrom begun front ++ c :: lossy rest := by
  induction front generalizing begun with
  | nil =>
    have hb : (byte c).toNat < 0x80 := (toNat_byte_of_plain hc).symm ▸ hc.2
    obtain ⟨hshown, hnext⟩ := step_of_lt hbegun hb
    rw [List.nil_append, shownFrom_cons, hshown, hnext, toNat_byte_of_plain hc, Char.ofNat_toNat,
      List.append_assoc]
    rfl
  | cons b front ih =>
    rw [List.cons_append, shownFrom_cons, shownFrom_cons, ih (wide_step hbegun b.toNat),
      List.append_assoc]

theorem append_eq_append_cons {α : Type} {a t x y : List α} {c : α} (hc : c ∉ a)
    (h : a ++ t = x ++ c :: y) : ∃ x', x = a ++ x' ∧ t = x' ++ c :: y := by
  rcases List.append_eq_append_iff.mp h with ⟨x', hx, ht⟩ | ⟨a', rfl, ht⟩
  · exact ⟨x', hx, ht⟩
  · cases a' with
    | nil => exact ⟨[], by simp, ht.symm⟩
    | cons d a' =>
      obtain ⟨rfl, -⟩ := List.cons_eq_cons.mp ht
      exact absurd (List.mem_append_right x List.mem_cons_self) hc

/-- A plain character of the text is one of the bytes, and the text around it is read from the bytes
around that byte. -/
theorem exists_of_shownFrom_eq (hbegun : ∀ s ∈ begun, s.Wide) {c : Char} (hc : Plain c)
    {bytes : List UInt8} {x y : List Char} (h : shownFrom begun bytes = x ++ c :: y) :
    ∃ front rest, bytes = front ++ byte c :: rest ∧ shownFrom begun front = x ∧ lossy rest = y := by
  induction bytes generalizing begun x with
  | nil =>
    have hmem : c ∈ shownFrom begun [] := h ▸ List.mem_append_right x List.mem_cons_self
    exact absurd hc (not_plain_of_mem_shownFrom_nil hmem)
  | cons b bytes ih =>
    have hlater : ∀ x', x = stepShown b.toNat begun ++ x' →
        shownFrom (step b.toNat begun).2 bytes = x' ++ c :: y →
        ∃ front rest, b :: bytes = front ++ byte c :: rest ∧ shownFrom begun front = x ∧
          lossy rest = y := by
      rintro x' rfl hnext
      obtain ⟨front, rest, rfl, rfl, hrest⟩ := ih (wide_step hbegun b.toNat) hnext
      exact ⟨b :: front, rest, rfl, shownFrom_cons begun b front, hrest⟩
    rw [shownFrom_cons] at h
    rcases Nat.lt_or_ge b.toNat 0x80 with hb | hb
    · obtain ⟨hshown, hnext⟩ := step_of_lt hbegun hb
      have hcut : c ∉ shownFrom begun [] := fun hmem => not_plain_of_mem_shownFrom_nil hmem hc
      rw [hshown, List.append_assoc] at h
      obtain ⟨x', rfl, ht⟩ := append_eq_append_cons hcut h
      cases x' with
      | nil =>
        obtain ⟨rfl, hy⟩ := List.cons_eq_cons.mp ht
        refine ⟨[], bytes, by rw [byte_ofNat hb]; rfl, (List.append_nil _).symm, ?_⟩
        rw [← hy, hnext]
        rfl
      | cons d x' =>
        obtain ⟨rfl, hrest⟩ := List.cons_eq_cons.mp ht
        exact hlater x' (by rw [hshown, List.append_assoc]; rfl) hrest
    · have hnone : c ∉ stepShown b.toNat begun := fun hmem => (step_of_ge hbegun hb).1 c hmem hc
      obtain ⟨x', hx, ht⟩ := append_eq_append_cons hnone h
      exact hlater x' hx ht

theorem lossy_eq_append_cons_iff {c : Char} (hc : Plain c) {bytes : List UInt8} {x y : List Char} :
    lossy bytes = x ++ c :: y ↔
      ∃ front rest, bytes = front ++ byte c :: rest ∧ lossy front = x ∧ lossy rest = y := by
  constructor
  · exact exists_of_shownFrom_eq (by simp) hc
  · rintro ⟨front, rest, rfl, rfl, rfl⟩
    exact shownFrom_append_cons (by simp) hc front rest

/-! ### Parts of plain characters -/

variable {part : List Char} {bytes : List UInt8}

theorem prefix_lossy_iff (h : ∀ c ∈ part, Plain c) :
    part <+: lossy bytes ↔ encode part <+: bytes := by
  induction part generalizing bytes with
  | nil => exact iff_of_true List.nil_prefix List.nil_prefix
  | cons c part ih =>
    obtain ⟨hc, hpart⟩ := List.forall_mem_cons.mp h
    rw [encode_cons_of_plain hc]
    constructor
    · rintro ⟨y, hy⟩
      obtain ⟨front, rest, rfl, hfront, hrest⟩ :=
        (lossy_eq_append_cons_iff (x := []) hc).mp hy.symm
      obtain ⟨rfl, -⟩ := eq_nil_of_shownFrom_eq_nil (by simp) hfront
      exact List.cons_prefix_cons.mpr ⟨rfl, (ih hpart).mp ⟨y, hrest.symm⟩⟩
    · rintro ⟨rest, rfl⟩
      obtain ⟨y, hy⟩ := (ih hpart).mpr (List.prefix_append (encode part) rest)
      exact ⟨y, ((lossy_eq_append_cons_iff (x := []) hc).mpr ⟨[], _, rfl, rfl, hy.symm⟩).symm⟩

theorem infix_lossy_iff (h : ∀ c ∈ part, Plain c) :
    part <:+: lossy bytes ↔ encode part <:+: bytes := by
  cases part with
  | nil => exact iff_of_true List.nil_infix List.nil_infix
  | cons c part =>
    obtain ⟨hc, hpart⟩ := List.forall_mem_cons.mp h
    rw [encode_cons_of_plain hc]
    constructor
    · rintro ⟨x, y, hxy⟩
      rw [List.append_assoc, List.cons_append] at hxy
      obtain ⟨front, rest, rfl, -, hrest⟩ := (lossy_eq_append_cons_iff hc).mp hxy.symm
      obtain ⟨z, rfl⟩ := (prefix_lossy_iff hpart).mp ⟨y, hrest.symm⟩
      exact ⟨front, z, by rw [List.append_assoc]; rfl⟩
    · rintro ⟨front, rest, rfl⟩
      obtain ⟨y, hy⟩ := (prefix_lossy_iff hpart).mpr (List.prefix_append (encode part) rest)
      refine ⟨lossy front, y, ?_⟩
      rw [List.append_assoc, List.cons_append]
      exact ((lossy_eq_append_cons_iff hc).mpr
        ⟨front, encode part ++ rest, by rw [List.append_assoc]; rfl, rfl, hy.symm⟩).symm

end LabelFleet.Utf8
