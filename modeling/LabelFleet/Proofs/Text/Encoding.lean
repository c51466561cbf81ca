import LabelFleet.Text.Utf8
import Mathlib.Tactic.Common

/-! Text that has been written as bytes is read back, character by character. -/
namespace LabelFleet.Utf8

theorem toNat_byte {n : Nat} (h : n < 256) : (UInt8.ofNat n).toNat = n := by
  rw [UInt8.toNat_ofNat', Nat.mod_eq_of_lt (by omega)]

/-! ### The first byte of a character -/

theorem start_one {b : Nat} (h : b < 0x80) : start b = ([.char (Char.ofNat b)], none) :=
  if_pos h

theorem start_two {n : Nat} (h : 2 ≤ n ∧ n < 32) :
    start (n + 192) = ([], some ⟨n, 1, 1, 0x80, 0xBF⟩) := by
  have hbits : (n + 192) % 32 = n := by omega
  rw [start, if_neg (by omega), if_pos (by omega), hbits]

theorem start_three {n : Nat} (h : n < 16) :
    start (n + 224) = ([], some ⟨n, 1, 2, if n = 0 then 0xA0 else 0x80,
      if n = 13 then 0x9F else 0xBF⟩) := by
  have hbits : (n + 224) % 16 = n := by omega
  rw [start, if_neg (by omega), if_neg (by omega), if_pos (by omega), hbits]
  simp

theorem start_four {n : Nat} (h : n < 5) :
    start (n + 240) = ([], some ⟨n, 1, 3, if n = 0 then 0x90 else 0x80,
      if n = 4 then 0x8F else 0xBF⟩) := by
  have hbits : (n + 240) % 8 = n := by omega
  rw [start, if_neg (by omega), if_neg (by omega), if_neg (by omega), if_pos (by omega), hbits]
  simp

/-! ### The bytes that follow it -/

theorem piecesFrom_cons (begun : Option Begun) (b : UInt8) (bs : List UInt8) :
    piecesFrom begun (b :: bs) =
      (step b.toNat begun).1 ++ piecesFrom (step b.toNat begun).2 bs := rfl

theorem piecesFrom_start {b : Nat} (hb : b < 256) {s : Begun} (h : start b = ([], some s))
    (bs : List UInt8) :
    piecesFrom none (UInt8.ofNat b :: bs) = piecesFrom (some s) bs := by
  rw [piecesFrom_cons, toNat_byte hb, step, h]
  rfl

variable {bits read missing low high b : Nat}

/-- A byte that leaves others missing adds its six bits. -/
theorem piecesFrom_more (hb : b < 64) (h : low ≤ b + 128 ∧ b + 128 ≤ high) (hmissing : missing ≠ 1)
    (bs : List UInt8) :
    piecesFrom (some ⟨bits, read, missing, low, high⟩) (UInt8.ofNat (b + 128) :: bs) =
      piecesFrom (some ⟨64 * bits + b, read + 1, missing - 1, 0x80, 0xBF⟩) bs := by
  have hbits : (b + 128) % 64 = b := by omega
  rw [piecesFrom_cons, toNat_byte (by omega), step, if_pos h, hbits]
  dsimp only
  rw [if_neg hmissing]
  rfl

/-- The last byte makes up the character. -/
theorem piecesFrom_last (hb : b < 64) (h : low ≤ b + 128 ∧ b + 128 ≤ high) {c : Char}
    (hc : 64 * bits + b = c.toNat) (bs : List UInt8) :
    piecesFrom (some ⟨bits, read, 1, low, high⟩) (UInt8.ofNat (b + 128) :: bs) =
      .char c :: piecesFrom none bs := by
  have hbits : (b + 128) % 64 = b := by omega
  rw [piecesFrom_cons, toNat_byte (by omega), step, if_pos h, hbits]
  dsimp only
  rw [if_pos rfl, hc, Char.ofNat_toNat]
  rfl

/-- The form of a character is read as the character, whatever follows. -/
theorem piecesFrom_utf8EncodeChar (c : Char) (bs : List UInt8) :
    piecesFrom none (String.utf8EncodeChar c ++ bs) = .char c :: piecesFrom none bs := by
  have hvalid : c.toNat < 0xD800 ∨ 0xDFFF < c.toNat ∧ c.toNat < 0x110000 := c.valid
  unfold String.utf8EncodeChar
  rw [Char.toNat_val]
  dsimp only
  -- One, two, three or four bytes.
  split_ifs with h1 h2 h3
  · rw [List.singleton_append, piecesFrom_cons, toNat_byte (by omega), step,
      start_one (by omega), Char.ofNat_toNat]
    rfl
  · have hlast : 64 * (c.toNat / 64 % 32) + c.toNat % 64 = c.toNat := by omega
    rw [List.cons_append, List.singleton_append,
      piecesFrom_start (by omega) (start_two (by omega)),
      piecesFrom_last (by omega) (by omega) hlast]
  · have hlast : 64 * (64 * (c.toNat / 4096 % 16) + c.toNat / 64 % 64) + c.toNat % 64 =
        c.toNat := by
      omega
    rw [List.cons_append, List.cons_append, List.singleton_append,
      piecesFrom_start (by omega) (start_three (by omega)),
      piecesFrom_more (by omega) (by constructor <;> split_ifs <;> omega) (by decide),
      piecesFrom_last (by omega) (by omega) hlast]
  · have hlast : 64 * (64 * (64 * (c.toNat / 262144 % 8) + c.toNat / 4096 % 64) +
        c.toNat / 64 % 64) + c.toNat % 64 = c.toNat := by omega
    rw [List.cons_append, List.cons_append, List.cons_append, List.singleton_append,
      piecesFrom_start (by omega) (start_four (by omega)),
      piecesFrom_more (by omega) (by constructor <;> split_ifs <;> omega) (by decide),
      piecesFrom_more (by omega) (by omega) (by decide),
      piecesFrom_last (by omega) (by omega) hlast]

theorem pieces_encode (s : List Char) : pieces (encode s) = s.map .char := by
  induction s with
  | nil => rfl
  | cons c s ih =>
    rw [pieces, encode, List.flatMap_cons, piecesFrom_utf8EncodeChar, List.map_cons, ← ih]
    rfl

theorem textFrom_map_char (index : Nat) (s : List Char) : textFrom index (s.map .char) = .ok s := by
  induction s generalizing index with
  | nil => rfl
  | cons c s ih =>
    rw [List.map_cons, textFrom, ih]
    rfl

theorem lossy_encode (s : List Char) : lossy (encode s) = s := by
  rw [lossy, pieces_encode, List.map_map]
  exact List.map_id s

/-- A text is read back from its bytes. -/
theorem decode_encode (s : List Char) : decode (encode s) = .ok s := by
  rw [decode, pieces_encode, textFrom_map_char]

end LabelFleet.Utf8
