import LabelFleet.Text.Search

/-! Texts as bytes. A text takes its UTF-8 form character by character, so a byte offset is a
character boundary exactly where a part of the text ends, and a byte below 128 is a character. -/
namespace LabelFleet.Text

/-- The UTF-8 form of a text. -/
def bytes (s : List Char) : List UInt8 := s.flatMap String.utf8EncodeChar

@[simp] theorem bytes_nil : bytes [] = [] := rfl

@[simp] theorem bytes_cons (c : Char) (s : List Char) :
    bytes (c :: s) = String.utf8EncodeChar c ++ bytes s := List.flatMap_cons

@[simp] theorem bytes_append (s t : List Char) : bytes (s ++ t) = bytes s ++ bytes t :=
  List.flatMap_append

@[simp] theorem length_bytes (s : List Char) : (bytes s).length = byteLength s := by
  induction s with
  | nil => rfl
  | cons c s ih => simp [byteLength, ih]

theorem toByteArray_bytes (s : List Char) : (bytes s).toByteArray = (String.ofList s).toUTF8 := by
  simp [bytes, List.utf8Encode]

theorem utf8ByteSize_ofList (s : List Char) : (String.ofList s).utf8ByteSize = byteLength s := by
  rw [← length_bytes, ← String.size_toByteArray, ← String.toUTF8_eq_toByteArray,
    ← toByteArray_bytes, List.size_toByteArray]

theorem utf8ByteSize_eq (s : String) : s.utf8ByteSize = byteLength s.toList := by
  rw [← utf8ByteSize_ofList, String.ofList_toList]

/-- The byte at an offset of a text is that of its UTF-8 form. -/
theorem getElem?_toUTF8 (s : String) (i : Nat) : s.toUTF8[i]? = (bytes s.toList)[i]? := by
  have h := toByteArray_bytes s.toList
  rw [String.ofList_toList] at h
  rw [← h]
  simp [getElem?_def]

/-- Every byte of a form of more than one byte has its highest bit set. -/
theorem toNat_of_mem_utf8EncodeChar {c : Char} {b : UInt8} (hc : 127 < c.val.toNat)
    (h : b ∈ String.utf8EncodeChar c) : 128 ≤ b.toNat := by
  have lead : ∀ v m t : Nat, 0 < m → m ≤ 64 → 128 ≤ t → t + m ≤ 256 →
      128 ≤ (UInt8.ofNat (v % m + t)).toNat := by
    intro v m t hm hm' ht ht'
    have := Nat.mod_lt v hm
    rw [UInt8.toNat_ofNat', Nat.mod_eq_of_lt (by omega)]
    omega
  unfold String.utf8EncodeChar at h
  rw [if_neg (by omega)] at h
  repeat' split at h
  all_goals
    simp only [List.mem_cons, List.not_mem_nil, or_false] at h
  · rcases h with rfl | rfl <;> exact lead _ _ _ (by decide) (by decide) (by decide) (by decide)
  · rcases h with rfl | rfl | rfl <;>
      exact lead _ _ _ (by decide) (by decide) (by decide) (by decide)
  · rcases h with rfl | rfl | rfl | rfl <;>
      exact lead _ _ _ (by decide) (by decide) (by decide) (by decide)

/-- A character below 128 is a byte of its own. -/
theorem utf8EncodeChar_of_lt {c : Char} (h : c.toNat < 128) :
    String.utf8EncodeChar c = [UInt8.ofNat c.toNat] := by
  have hval : c.val.toNat = c.toNat := rfl
  unfold String.utf8EncodeChar
  rw [if_pos (by omega), hval]

/-- A byte below 128 is a character of its own. -/
theorem utf8EncodeChar_eq_singleton_of_mem {c : Char} {b : UInt8}
    (h : b ∈ String.utf8EncodeChar c) (hb : b.toNat < 128) :
    String.utf8EncodeChar c = [b] ∧ c.toNat = b.toNat := by
  by_cases hc : 127 < c.val.toNat
  · exact absurd (toNat_of_mem_utf8EncodeChar hc h) (by omega)
  · have he : String.utf8EncodeChar c = [UInt8.ofNat c.val.toNat] := by
      unfold String.utf8EncodeChar
      rw [if_pos (by omega)]
    rw [he, List.mem_singleton] at h
    refine ⟨by rw [he, h], ?_⟩
    rw [h, UInt8.toNat_ofNat', Nat.mod_eq_of_lt (by omega)]
    rfl

theorem getElem?_bytes_eq_some_iff {s : List Char} {i : Nat} {b : UInt8} (hb : b.toNat < 128) :
    (bytes s)[i]? = some b ↔
      ∃ before c after, s = before ++ c :: after ∧ byteLength before = i ∧ c.toNat = b.toNat := by
  constructor
  · intro h
    induction s generalizing i with
    | nil => simp at h
    | cons c s ih =>
      rw [bytes_cons] at h
      by_cases hi : i < (String.utf8EncodeChar c).length
      · rw [List.getElem?_append_left hi] at h
        obtain ⟨he, hc⟩ := utf8EncodeChar_eq_singleton_of_mem (List.mem_of_getElem? h) hb
        rw [he, List.length_singleton] at hi
        exact ⟨[], c, s, rfl, by simp [byteLength]; omega, hc⟩
      · rw [List.getElem?_append_right (by omega)] at h
        obtain ⟨before, d, after, rfl, hd, hn⟩ := ih h
        refine ⟨c :: before, d, after, rfl, ?_, hn⟩
        rw [String.length_utf8EncodeChar] at hi hd
        simp only [byteLength]
        omega
  · rintro ⟨before, c, after, rfl, rfl, hc⟩
    have he : String.utf8EncodeChar c = [b] := by
      unfold String.utf8EncodeChar
      have hv : c.val.toNat = b.toNat := hc
      rw [if_pos (by omega), hv, UInt8.ofNat_toNat]
    rw [bytes_append, List.getElem?_append_right (by simp), bytes_cons, he]
    simp

theorem byteLength_eq_zero_iff {s : List Char} : byteLength s = 0 ↔ s = [] := by
  cases s with
  | nil => simp [byteLength]
  | cons c s =>
    have hc := c.utf8Size_pos
    simp only [byteLength, reduceCtorEq, iff_false]
    omega

theorem getElem?_bytes_zero_iff {s : List Char} {b : UInt8} (hb : b.toNat < 128) :
    (bytes s)[0]? = some b ↔ ∃ c after, s = c :: after ∧ c.toNat = b.toNat := by
  rw [getElem?_bytes_eq_some_iff hb]
  constructor
  · rintro ⟨before, c, after, rfl, h, hc⟩
    rw [byteLength_eq_zero_iff.mp h]
    exact ⟨c, after, rfl, hc⟩
  · rintro ⟨c, after, rfl, hc⟩
    exact ⟨[], c, after, rfl, rfl, hc⟩

/-- The bytes behind a part at the start of a text. -/
theorem getElem?_bytes_append (before after : List Char) (i : Nat) :
    (bytes (before ++ after))[byteLength before + i]? = (bytes after)[i]? := by
  rw [bytes_append, List.getElem?_append_right (by simp), length_bytes, Nat.add_sub_cancel_left]

/-- A byte stays in a part that is cut out around it. -/
theorem getElem?_extract {a : ByteArray} {i j k : Nat} {b : UInt8} (hi : i ≤ k) (hj : k < j)
    (h : a[k]? = some b) : (a.extract i j)[k - i]? = some b := by
  rw [getElem?_def] at h ⊢
  split at h
  · next hk =>
    rw [dif_pos (by rw [ByteArray.size_extract]; omega), ByteArray.getElem_extract]
    simpa [Nat.add_sub_cancel' hi] using h
  · contradiction

/-- Where a part at the start of a text ends is a boundary of characters. -/
theorem isValid_byteLength {s : String} {before after : List Char}
    (h : s.toList = before ++ after) : String.Pos.Raw.IsValid s ⟨byteLength before⟩ := by
  rw [String.Pos.Raw.isValid_iff_exists_append]
  refine ⟨String.ofList before, String.ofList after, ?_, ?_⟩
  · rw [← String.ofList_append, ← h, String.ofList_toList]
  · apply String.Pos.Raw.ext
    exact (utf8ByteSize_ofList before).symm

/-- The bytes between two boundaries are those of the part between them. -/
theorem extract_toUTF8 {s : String} {before part after : List Char}
    (h : s.toList = before ++ (part ++ after)) :
    s.toUTF8.extract (byteLength before) (byteLength before + byteLength part) =
      (String.ofList part).toUTF8 := by
  apply ByteArray.ext
  have hs : s.toUTF8 = (bytes s.toList).toByteArray := by
    rw [toByteArray_bytes, String.ofList_toList]
  rw [hs, ← toByteArray_bytes, h]
  apply Array.ext'
  simp [List.extract]

end LabelFleet.Text
