import LabelFleet.Proofs.Markup.Scanning
import LabelFleet.Proofs.Text.Bytes

/-! Commands at byte offsets. Where a command starts and where its text ends is said here of the
bytes of a markup alone; the tokens are exactly the texts cut out at these offsets. -/
namespace LabelFleet.Markup
open Text

/-- A caret or a tilde. -/
def LeaderByte (b : UInt8) : Prop := b = 0x5e ∨ b = 0x7e

def LetterByte (b : UInt8) : Prop := 0x41 ≤ b ∧ b ≤ 0x5a ∨ 0x61 ≤ b ∧ b ≤ 0x7a

def DigitByte (b : UInt8) : Prop := 0x30 ≤ b ∧ b ≤ 0x39

/-- At this byte stands a caret before a letter or digit, or a tilde before a letter. -/
def CommandStart (markup : ByteArray) (i : Nat) : Prop :=
  ∃ a b, markup[i]? = some a ∧ markup[i + 1]? = some b ∧
    (a = 0x5e ∧ (LetterByte b ∨ DigitByte b) ∨ a = 0x7e ∧ LetterByte b)

/-- `j` is the offset of the first leader after byte `i`, or the size if there is none. -/
structure CommandEnd (markup : ByteArray) (i j : Nat) : Prop where
  after : i < j
  stops : j = markup.size ∨ ∃ b, markup[j]? = some b ∧ LeaderByte b
  first : ∀ k b, i < k → k < j → markup[k]? = some b → ¬ LeaderByte b

/-- The token is the text from its start up to `j`, without the blank characters at its end. -/
structure CutOut (markup : String) (t : Token) (j : Nat) : Prop where
  boundaries : ∀ p ∈ [t.start, t.start + byteLength t.code, t.stop, j],
    String.Pos.Raw.IsValid markup ⟨p⟩
  trimmed : ∃ raw, markup.toUTF8.extract t.start j = (String.ofList raw).toUTF8 ∧
    TrimmedEnd raw t.text
  span : markup.toUTF8.extract t.start t.stop = (String.ofList t.text).toUTF8
  stop : t.stop = t.start + (String.ofList t.text).utf8ByteSize
  twoBytes : 2 ≤ (String.ofList t.text).utf8ByteSize
  leader : ∃ c rest, t.text = c :: rest ∧ (c = '^' ∨ c = '~') ∧ '^' ∉ rest ∧ '~' ∉ rest
  parts : t.code ++ t.args = t.text

theorem leaderByte_iff {b : UInt8} {c : Char} (h : c.toNat = b.toNat) :
    LeaderByte b ↔ isLeader c = true := by
  rw [isLeader_iff, LeaderByte, ← Char.toNat_inj, ← Char.toNat_inj, h, ← UInt8.toNat_inj,
    ← UInt8.toNat_inj]
  rfl

theorem letterByte_iff {b : UInt8} {c : Char} (h : c.toNat = b.toNat) :
    LetterByte b ↔ c.isAlpha = true := by
  rw [isAlpha_iff, h, LetterByte]
  simp [UInt8.le_iff_toNat_le]

theorem digitByte_iff {b : UInt8} {c : Char} (h : c.toNat = b.toNat) :
    DigitByte b ↔ c.isDigit = true := by
  rw [isDigit_iff, h, DigitByte]
  simp [UInt8.le_iff_toNat_le]

theorem lt_of_letterByte {b : UInt8} (h : LetterByte b) : b.toNat < 128 := by
  rcases h with ⟨-, h⟩ | ⟨-, h⟩
  · exact Nat.lt_of_le_of_lt (UInt8.le_iff_toNat_le.mp h) (by decide)
  · exact Nat.lt_of_le_of_lt (UInt8.le_iff_toNat_le.mp h) (by decide)

theorem lt_of_digitByte {b : UInt8} (h : DigitByte b) : b.toNat < 128 :=
  Nat.lt_of_le_of_lt (UInt8.le_iff_toNat_le.mp h.2) (by decide)

theorem lt_of_leaderByte {b : UInt8} (h : LeaderByte b) : b.toNat < 128 := by
  rcases h with rfl | rfl <;> decide

/-- The bytes of two characters open a command exactly if the characters do. -/
theorem startsCommand_cons_iff {a b : UInt8} {c d : Char} (hc : c.toNat = a.toNat)
    (hd : d.toNat = b.toNat) (more : List Char) :
    startsCommand c (d :: more) = true ↔
      a = 0x5e ∧ (LetterByte b ∨ DigitByte b) ∨ a = 0x7e ∧ LetterByte b := by
  have hcaret : a = 0x5e ↔ c = '^' := by
    rw [← Char.toNat_inj, hc, ← UInt8.toNat_inj]; rfl
  have htilde : a = 0x7e ↔ c = '~' := by
    rw [← Char.toNat_inj, hc, ← UInt8.toNat_inj]; rfl
  rw [startsCommand_iff, hcaret, htilde, letterByte_iff hd, digitByte_iff hd, ← isAlphanum_iff]
  constructor
  · rintro ⟨_, _, hmore, h⟩
    obtain ⟨rfl, rfl⟩ := List.cons.inj hmore
    exact h
  · intro h
    exact ⟨d, more, rfl, h⟩

theorem utf8Size_of_isLeader {c : Char} (h : isLeader c = true) : c.utf8Size = 1 := by
  rcases isLeader_iff.mp h with rfl | rfl <;> rfl

/-- Behind a leader come the bytes of what follows it. -/
theorem getElem?_toUTF8_behind {markup : String} {before rest : List Char} {c : Char}
    (hs : markup.toList = before ++ c :: rest) (hc : isLeader c = true) (m : Nat) :
    markup.toUTF8[byteLength before + 1 + m]? = (bytes rest)[m]? := by
  have h := getElem?_bytes_append (before ++ [c]) rest m
  rw [getElem?_toUTF8, hs]
  simpa [byteLength, utf8Size_of_isLeader hc] using h

/-- The offsets at which a command starts are the places of the text at which one does. -/
theorem commandStart_iff {markup : String} {i : Nat} :
    CommandStart markup.toUTF8 i ↔ ∃ before c rest, markup.toList = before ++ c :: rest ∧
      startsCommand c rest = true ∧ byteLength before = i := by
  constructor
  · rintro ⟨a, b, ha, hb, h⟩
    have hlead : LeaderByte a := h.imp And.left And.left
    have hlt : b.toNat < 128 := by
      rcases h with ⟨-, h | h⟩ | ⟨-, h⟩
      · exact lt_of_letterByte h
      · exact lt_of_digitByte h
      · exact lt_of_letterByte h
    rw [getElem?_toUTF8] at ha
    obtain ⟨before, c, rest, hs, rfl, hc⟩ :=
      (getElem?_bytes_eq_some_iff (lt_of_leaderByte hlead)).mp ha
    rw [← Nat.add_zero (_ + 1), getElem?_toUTF8_behind hs ((leaderByte_iff hc).mp hlead)] at hb
    obtain ⟨d, more, rfl, hd⟩ := (getElem?_bytes_zero_iff hlt).mp hb
    exact ⟨before, c, d :: more, hs, (startsCommand_cons_iff hc hd more).mpr h, rfl⟩
  · rintro ⟨before, c, rest, hs, hstart, rfl⟩
    obtain ⟨d, more, rfl, h⟩ := startsCommand_iff.mp hstart
    have hc : c.toNat < 128 := by rcases h with ⟨rfl, -⟩ | ⟨rfl, -⟩ <;> decide
    have hd : d.toNat < 128 := by
      have halnum : d.isAlphanum = true := by
        rcases h with ⟨-, h⟩ | ⟨-, h⟩
        · exact h
        · exact isAlphanum_iff.mpr (.inl h)
      rw [isAlphanum_iff, isAlpha_iff, isDigit_iff] at halnum
      omega
    have hca : c.toNat = (UInt8.ofNat c.toNat).toNat := by simp; omega
    have hdb : d.toNat = (UInt8.ofNat d.toNat).toNat := by simp; omega
    refine ⟨_, _, ?_, ?_, (startsCommand_cons_iff hca hdb more).mp hstart⟩
    · rw [getElem?_toUTF8, getElem?_bytes_eq_some_iff (hca ▸ hc)]
      exact ⟨before, c, _, hs, rfl, hca⟩
    · rw [← Nat.add_zero (_ + 1), getElem?_toUTF8_behind hs (isLeader_of_startsCommand hstart),
        getElem?_bytes_zero_iff (hdb ▸ hd)]
      exact ⟨d, more, rfl, hdb⟩

/-- The raw text of a command ends at the first leader after its own. -/
theorem commandEnd_rawText {markup : String} {before rest : List Char} {c : Char}
    (hs : markup.toList = before ++ c :: rest) (hc : isLeader c = true) :
    CommandEnd markup.toUTF8 (byteLength before)
      (byteLength before + byteLength (rawText c rest)) := by
  have hsplit : markup.toList =
      (before ++ rawText c rest) ++ rest.dropWhile (fun d => !isLeader d) := by
    rw [hs, rawText, List.append_assoc, List.cons_append, List.takeWhile_append_dropWhile]
  constructor
  case after =>
    have := c.utf8Size_pos
    simp only [rawText, byteLength]
    omega
  case stops =>
    rw [← byteLength_append]
    cases hrest : rest.dropWhile (fun d => !isLeader d) with
    | nil =>
      left
      rw [hrest, List.append_nil] at hsplit
      rw [← hsplit, ← utf8ByteSize_ofList, String.ofList_toList]
      rfl
    | cons d more =>
      right
      have hd : isLeader d = true := by
        simpa [hrest] using List.head?_dropWhile_not (fun d => !isLeader d) rest
      have hdb : d.toNat = (UInt8.ofNat d.toNat).toNat := by
        rcases isLeader_iff.mp hd with rfl | rfl <;> rfl
      have hb := (leaderByte_iff hdb).mpr hd
      refine ⟨_, ?_, hb⟩
      rw [getElem?_toUTF8, getElem?_bytes_eq_some_iff (lt_of_leaderByte hb)]
      exact ⟨_, d, more, hrest ▸ hsplit, rfl, hdb⟩
  case first =>
    intro k b hk hkj hb hlead
    obtain ⟨m, rfl⟩ : ∃ m, k = byteLength before + 1 + m := ⟨k - (byteLength before + 1), by omega⟩
    simp only [rawText, byteLength, utf8Size_of_isLeader hc] at hkj
    rw [getElem?_toUTF8_behind hs hc,
      ← List.takeWhile_append_dropWhile (p := fun d => !isLeader d) (l := rest), bytes_append,
      List.getElem?_append_left (by rw [length_bytes]; omega)] at hb
    obtain ⟨front, d, behind, hbody, -, hd⟩ :=
      (getElem?_bytes_eq_some_iff (lt_of_leaderByte hlead)).mp hb
    have hmem : d ∈ rest.takeWhile (fun d => !isLeader d) := by simp [hbody]
    have hnot := List.all_eq_true.mp List.all_takeWhile d hmem
    rw [(leaderByte_iff hd).mp hlead] at hnot
    exact absurd hnot (by decide)

/-- The token at a place is cut out of the markup there. -/
theorem cutOut_rawText {markup : String} {before rest : List Char} {c : Char}
    (hs : markup.toList = before ++ c :: rest) (hc : startsCommand c rest = true) :
    CutOut markup ⟨trimEnd (rawText c rest), byteLength before⟩
      (byteLength before + byteLength (rawText c rest)) := by
  obtain ⟨d, body, htext, hbody⟩ := trimEnd_rawText hc
  obtain ⟨blanks, hraw, htrim⟩ := trimmedEnd_trimEnd (rawText c rest)
  have hsplit : markup.toList =
      before ++ (rawText c rest ++ rest.dropWhile (fun d => !isLeader d)) := by
    rw [hs, rawText, List.cons_append, List.takeWhile_append_dropWhile]
  generalize htoken : trimEnd (rawText c rest) = text at htext hraw htrim ⊢
  generalize rest.dropWhile (fun d => !isLeader d) = later at hsplit
  have hspan : markup.toList = before ++ (text ++ (blanks ++ later)) := by
    rw [hsplit, hraw, List.append_assoc]
  constructor
  case boundaries =>
    have hcode : markup.toList = (before ++ text.take 3) ++ (text.drop 3 ++ (blanks ++ later)) := by
      rw [hspan, List.append_assoc, ← List.append_assoc (text.take 3), List.take_append_drop]
    simp only [List.forall_mem_cons, Token.stop, Token.code, ← byteLength_append]
    refine ⟨isValid_byteLength hs, isValid_byteLength hcode, ?_, ?_, by simp⟩
    · exact isValid_byteLength (by rw [hspan, List.append_assoc])
    · exact isValid_byteLength (by rw [hsplit, List.append_assoc])
  case trimmed => exact ⟨rawText c rest, extract_toUTF8 hsplit, blanks, hraw, htrim⟩
  case span => exact extract_toUTF8 hspan
  case stop => rw [utf8ByteSize_ofList]; rfl
  case twoBytes =>
    have := c.utf8Size_pos
    have := d.utf8Size_pos
    rw [utf8ByteSize_ofList, htext]
    simp only [byteLength]
    omega
  case leader =>
    refine ⟨c, d :: body, htext, isLeader_iff.mp (isLeader_of_startsCommand hc), ?_, ?_⟩
    · exact fun h => absurd (hbody _ h) (by decide)
    · exact fun h => absurd (hbody _ h) (by decide)
  case parts => exact Token.code_append_args _

/-- A command ends no later than the scanner goes on. -/
theorem stop_le_of_nextFrom {offset : Nat} {text : List Char} {t : Token} {later : Scanner}
    (h : Scanner.nextFrom offset text = some (t, later)) : t.stop ≤ later.offset := by
  induction text generalizing offset with
  | nil => simp [Scanner.nextFrom] at h
  | cons c rest ih =>
    rw [Scanner.nextFrom] at h
    split at h
    · obtain ⟨rfl, rfl⟩ := Prod.mk.inj (Option.some.inj h)
      obtain ⟨blanks, hraw, -⟩ := trimmedEnd_trimEnd (rawText c rest)
      have hlen := congrArg byteLength hraw
      rw [byteLength_append, rawText] at hlen
      simp only [Token.stop]
      omega
    · exact ih h

theorem start_of_mem_commandsFrom {offset : Nat} {text : List Char} {t : Token}
    (h : t ∈ commandsFrom offset text) : offset ≤ t.start := by
  obtain ⟨before, c, rest, -, -, rfl⟩ := mem_commandsFrom_iff.mp h
  exact Nat.le_add_right _ _

/-- Every command ends before the next one starts. -/
theorem pairwise_tokens (s : Scanner) :
    s.tokens.Pairwise fun t u => t.stop ≤ u.start := by
  fun_induction Scanner.tokens s with
  | case1 s h => exact .nil
  | case2 s t later h ih =>
    refine List.pairwise_cons.mpr ⟨fun u hu => ?_, ih⟩
    rw [Scanner.tokens_eq] at hu
    exact Nat.le_trans (stop_le_of_nextFrom h) (start_of_mem_commandsFrom hu)

/-- Tokenizing is exact. There is one token for each byte at which a command starts and no other, in
the order of these bytes and without overlap, and each is the text up to the next leader without the
blank characters at its end. -/
theorem tokenize_exact (markup : String) :
    (∀ i, (∃ t ∈ tokenize markup, t.start = i) ↔ CommandStart markup.toUTF8 i) ∧
      (tokenize markup).Pairwise (fun t u => t.start < u.start ∧ t.stop ≤ u.start) ∧
      ∀ t ∈ tokenize markup, ∃ j, CommandEnd markup.toUTF8 t.start j ∧ CutOut markup t j := by
  have located : ∀ t ∈ tokenize markup, ∃ before c rest, markup.toList = before ++ c :: rest ∧
      startsCommand c rest = true ∧ t = ⟨trimEnd (rawText c rest), byteLength before⟩ := by
    intro t ht
    rw [tokenize_eq] at ht
    simpa using mem_commandsFrom_iff.mp ht
  have cut : ∀ t ∈ tokenize markup,
      ∃ j, CommandEnd markup.toUTF8 t.start j ∧ CutOut markup t j := by
    intro t ht
    obtain ⟨before, c, rest, hs, hc, rfl⟩ := located t ht
    exact ⟨_, commandEnd_rawText hs (isLeader_of_startsCommand hc), cutOut_rawText hs hc⟩
  refine ⟨fun i => ?_, ?_, cut⟩
  · rw [commandStart_iff]
    constructor
    · rintro ⟨t, ht, rfl⟩
      obtain ⟨before, c, rest, hs, hc, rfl⟩ := located t ht
      exact ⟨before, c, rest, hs, hc, rfl⟩
    · rintro ⟨before, c, rest, hs, hc, rfl⟩
      refine ⟨⟨trimEnd (rawText c rest), byteLength before⟩, ?_, rfl⟩
      rw [tokenize_eq, mem_commandsFrom_iff]
      exact ⟨before, c, rest, hs, hc, by simp⟩
  · refine (pairwise_tokens (Scanner.start markup)).imp_of_mem fun ht _ h => ⟨?_, h⟩
    obtain ⟨j, -, hcut⟩ := cut _ ht
    have := hcut.stop
    have := hcut.twoBytes
    omega

example : (tokenize "kg ^^FDż5 ~~HS").map (fun t => (t.start, t.stop)) = [(4, 10), (12, 15)] := by
  cbv

end LabelFleet.Markup
