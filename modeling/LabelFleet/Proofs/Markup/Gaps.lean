import LabelFleet.Proofs.Markup.Marks
import LabelFleet.Proofs.Markup.Tokenizing

/-! What lies between commands. A leader ends the command in front of it also where it starts none
itself. So behind a command come blank characters up to the next leader, and if that leader starts
no command, the text from it up to the next command belongs to none. -/
namespace LabelFleet.Markup
open Text

variable {markup : String} {t u : Token} {i j k : Nat}

/-- The byte at which the command behind the `k`-th starts, or the size of the markup if there is
none. -/
def nextStart (markup : String) (k : Nat) : Nat :=
  ((tokenize markup)[k + 1]?.map Token.start).getD markup.utf8ByteSize

/-- Only blank characters stand from byte `i` up to byte `j`. -/
def BlankBetween (markup : String) (i j : Nat) : Prop :=
  ∃ blanks, markup.toUTF8.extract i j = (String.ofList blanks).toUTF8 ∧
    ∀ c ∈ blanks, isBlank c = true

/-- Behind a command come blank characters up to byte `j`, where the first leader after its own
stands, and from there to byte `next` a text in which no command starts. -/
structure PassedOver (markup : String) (t : Token) (j next : Nat) : Prop where
  leader : CommandEnd markup.toUTF8 t.start j
  stop_le : t.stop ≤ j
  le_next : j ≤ next
  blank : BlankBetween markup t.stop j
  silent : ∀ i, j ≤ i → i < next → ¬ CommandStart markup.toUTF8 i

theorem not_leaderByte_of_blankBetween {b : UInt8} (h : BlankBetween markup i j) (hi : i ≤ k)
    (hj : k < j) (hb : markup.toUTF8[k]? = some b) : ¬ LeaderByte b := by
  intro hlead
  obtain ⟨blanks, hcut, hblank⟩ := h
  have hbyte := getElem?_extract hi hj hb
  rw [hcut, getElem?_toUTF8, String.toList_ofList,
    getElem?_bytes_eq_some_iff (lt_of_leaderByte hlead)] at hbyte
  obtain ⟨before, c, after, rfl, -, hc⟩ := hbyte
  have hnot := not_isLeader_of_isBlank (hblank c (by simp))
  rw [(leaderByte_iff hc).mp hlead] at hnot
  contradiction

theorem leaderByte_of_commandStart (h : CommandStart markup.toUTF8 i) :
    ∃ b, markup.toUTF8[i]? = some b ∧ LeaderByte b := by
  obtain ⟨a, b, ha, -, h⟩ := h
  exact ⟨a, ha, h.imp And.left And.left⟩

theorem commandStart_iff_mem_tokenize :
    CommandStart markup.toUTF8 i ↔ ∃ t ∈ tokenize markup, t.start = i := by
  rw [commandStart_iff]
  constructor
  · rintro ⟨before, c, rest, hs, hstart, rfl⟩
    exact ⟨_, mem_tokenize_iff.mpr ⟨before, c, rest, hs, hstart, rfl⟩, rfl⟩
  · rintro ⟨t, ht, rfl⟩
    obtain ⟨before, c, rest, hs, hstart, rfl⟩ := mem_tokenize_iff.mp ht
    exact ⟨before, c, rest, hs, hstart, rfl⟩

theorem start_lt_stop (h : t ∈ tokenize markup) : t.start < t.stop := by
  obtain ⟨before, c, rest, -, hstart, rfl⟩ := mem_tokenize_iff.mp h
  obtain ⟨d, body, htext, -⟩ := trimEnd_rawText hstart
  have := c.utf8Size_pos
  rw [Token.stop, htext, byteLength]
  omega

theorem pairwise_start (markup : String) :
    (tokenize markup).Pairwise fun t u => t.start < u.start :=
  (pairwise_tokens (Scanner.start markup)).imp_of_mem fun ht _ h =>
    (start_lt_stop ht).trans_le h

/-- A command that starts after the `k`-th one starts no sooner than the one behind that. -/
theorem nextStart_le (hk : (tokenize markup)[k]? = some t) (hu : u ∈ tokenize markup)
    (h : t.start < u.start) : nextStart markup k ≤ u.start := by
  obtain ⟨hlt, rfl⟩ := List.getElem?_eq_some_iff.mp hk
  obtain ⟨m, hm, rfl⟩ := List.getElem_of_mem hu
  have hstarts := List.pairwise_iff_getElem.mp (pairwise_start markup)
  have hkm : k < m := by
    by_contra hmk
    rcases Nat.lt_or_eq_of_le (Nat.le_of_not_lt hmk) with hmk | rfl
    · exact Nat.lt_asymm h (hstarts m k hm hlt hmk)
    · exact Nat.lt_irrefl _ h
  have hlast : k + 1 < (tokenize markup).length := Nat.lt_of_le_of_lt hkm hm
  have hnext : nextStart markup k = (tokenize markup)[k + 1].start := by
    simp [nextStart, List.getElem?_eq_getElem hlast]
  rw [hnext]
  rcases Nat.lt_or_eq_of_le hkm with hlater | rfl
  · exact (hstarts (k + 1) m (by omega) hm hlater).le
  · exact Nat.le_refl _

theorem nextStart_cases (hk : (tokenize markup)[k]? = some t) :
    (∃ u ∈ tokenize markup, t.start < u.start ∧ nextStart markup k = u.start) ∨
      nextStart markup k = markup.utf8ByteSize := by
  cases hu : (tokenize markup)[k + 1]? with
  | none => exact .inr (by simp [nextStart, hu])
  | some u =>
    obtain ⟨hlt, rfl⟩ := List.getElem?_eq_some_iff.mp hk
    obtain ⟨hlt', rfl⟩ := List.getElem?_eq_some_iff.mp hu
    have hstarts := List.pairwise_iff_getElem.mp (pairwise_start markup) k (k + 1) hlt hlt'
    exact .inl ⟨_, List.getElem_mem hlt', hstarts (Nat.lt_succ_self k), by simp [nextStart, hu]⟩

theorem lt_size_of_commandStart (h : CommandStart markup.toUTF8 i) :
    i < markup.utf8ByteSize := by
  obtain ⟨before, c, rest, hs, -, rfl⟩ := commandStart_iff.mp h
  have := c.utf8Size_pos
  rw [utf8ByteSize_eq, hs, byteLength_append, byteLength]
  omega

theorem nextStart_le_size (hk : (tokenize markup)[k]? = some t) :
    nextStart markup k ≤ markup.utf8ByteSize := by
  rcases nextStart_cases hk with ⟨u, hu, -, hnext⟩ | hnext
  · rw [hnext]
    exact (lt_size_of_commandStart (commandStart_iff_mem_tokenize.mpr ⟨u, hu, rfl⟩)).le
  · exact hnext.le

/-- The next command does not start before the next leader. -/
theorem CommandEnd.le_nextStart (h : CommandEnd markup.toUTF8 t.start j)
    (hsize : j ≤ markup.utf8ByteSize) (hk : (tokenize markup)[k]? = some t) :
    j ≤ nextStart markup k := by
  rcases nextStart_cases hk with ⟨u, hu, hlt, hnext⟩ | hnext
  · rw [hnext]
    by_contra hj
    obtain ⟨b, hb, hlead⟩ :=
      leaderByte_of_commandStart (commandStart_iff_mem_tokenize.mpr ⟨u, hu, rfl⟩)
    exact h.first _ b hlt (by omega) hb hlead
  · rwa [hnext]

/-- All of what is passed over is blank exactly if the leader that ends the command starts the next
one, or if there is no such leader. -/
theorem PassedOver.blankBetween_iff {next : Nat} (h : PassedOver markup t j next)
    (hsize : next ≤ markup.utf8ByteSize) : BlankBetween markup t.stop next ↔ j = next := by
  constructor
  · intro hblank
    by_contra hne
    have hlt : j < next := Nat.lt_of_le_of_ne h.le_next hne
    rcases h.leader.stops with hend | ⟨b, hb, hlead⟩
    · change j = markup.utf8ByteSize at hend
      omega
    · exact not_leaderByte_of_blankBetween hblank h.stop_le hlt hb hlead
  · rintro rfl
    exact h.blank

/-- The raw argument of a field, up to byte `j`, is its payload with blank characters behind. -/
def FieldUpTo (markup : String) (t : Token) (j : Nat) : Prop :=
  ∃ raw, markup.toUTF8.extract (t.start + 3) j = (String.ofList raw).toUTF8 ∧ TrimmedEnd raw t.args

theorem fieldUpTo_of_text {before blanks later : List Char}
    (hs : markup.toList = before ++ ((t.text ++ blanks) ++ later))
    (hstart : t.start = byteLength before) (htrim : TrimmedEnd (t.text ++ blanks) t.text)
    (hop : t.opcode = .fieldData) :
    FieldUpTo markup t (byteLength before + byteLength (t.text ++ blanks)) := by
  have hmark : Opcode.fieldData.mark? = some "^FD" := rfl
  obtain ⟨args, htext⟩ := (Opcode.classify_eq_iff hmark).mp hop
  have hargs : t.args = args := by
    rw [Token.args, ← htext]
    rfl
  obtain ⟨blanks', hraw, hblank, hlast⟩ := htrim
  obtain rfl := List.append_cancel_left hraw
  refine ⟨args ++ blanks, ?_, blanks, by rw [hargs], hblank, ?_⟩
  · have hsplit : markup.toList = (before ++ "^FD".toList) ++ ((args ++ blanks) ++ later) := by
      rw [hs, ← htext]
      simp
    have hcut := extract_toUTF8 hsplit
    rw [byteLength_append, ← hstart] at hcut
    rw [← hcut, ← hstart, ← htext]
    congr 1
    simp [byteLength, Nat.add_assoc]
  · rw [hargs]
    intro c hc
    apply hlast c
    rw [← htext, List.getLast?_append, Option.mem_def.mp hc]
    rfl

theorem exists_passedOver (hk : (tokenize markup)[k]? = some t) :
    ∃ j, PassedOver markup t j (nextStart markup k) ∧
      (t.opcode = .fieldData → FieldUpTo markup t j) := by
  obtain ⟨before, c, rest, hs, hstart, rfl⟩ := mem_tokenize_iff.mp (List.mem_of_getElem? hk)
  have hleader := commandEnd_rawText hs (isLeader_of_startsCommand hstart)
  have htrim := trimmedEnd_trimEnd (rawText c rest)
  have hsplit : markup.toList =
      before ++ (rawText c rest ++ rest.dropWhile (fun d => !isLeader d)) := by
    rw [hs, rawText, List.cons_append, List.takeWhile_append_dropWhile]
  generalize rest.dropWhile (fun d => !isLeader d) = later at hsplit
  generalize htext : trimEnd (rawText c rest) = text at hk htrim ⊢
  obtain ⟨blanks, hraw, hblank, -⟩ := id htrim
  rw [hraw] at hleader hsplit htrim
  have hsize : byteLength before + byteLength (text ++ blanks) ≤ markup.utf8ByteSize := by
    rw [utf8ByteSize_eq, hsplit]
    simp only [byteLength_append]
    omega
  refine ⟨_, ⟨hleader, ?_, hleader.le_nextStart hsize hk, ⟨blanks, ?_, hblank⟩, ?_⟩, ?_⟩
  · simp only [Token.stop, byteLength_append]
    omega
  · have hbehind : markup.toList = (before ++ text) ++ (blanks ++ later) := by
      rw [hsplit]
      simp
    simpa [Token.stop, Nat.add_assoc] using extract_toUTF8 hbehind
  · intro i hji hi hi'
    obtain ⟨u, hu, rfl⟩ := commandStart_iff_mem_tokenize.mp hi'
    have := nextStart_le hk hu (hleader.after.trans_le hji)
    omega
  · exact fieldUpTo_of_text hsplit rfl htrim

/-- Nothing is lost between commands but what follows a stray leader. In a markup that begins with a
command, what comes behind a command is blank up to the next leader, and is passed over from there
to the next command; so all of it is blank exactly if that leader starts the next command. The
payload of a field reaches up to the next leader, whatever that starts. -/
theorem tokenize_passes_over (markup : String) (h : CommandStart markup.toUTF8 0) :
    (tokenize markup)[0]?.map Token.start = some 0 ∧
      ∀ k t, (tokenize markup)[k]? = some t → ∃ j, PassedOver markup t j (nextStart markup k) ∧
        (BlankBetween markup t.stop (nextStart markup k) ↔ j = nextStart markup k) ∧
        (t.opcode = .fieldData → FieldUpTo markup t j) := by
  constructor
  · obtain ⟨t, ht, hstart⟩ := commandStart_iff_mem_tokenize.mp h
    obtain ⟨m, hm, rfl⟩ := List.getElem_of_mem ht
    cases m with
    | zero => rw [List.getElem?_eq_getElem hm, Option.map_some, hstart]
    | succ m =>
      have hstarts := List.pairwise_iff_getElem.mp (pairwise_start markup)
      have := hstarts 0 (m + 1) (by omega) hm (by omega)
      omega
  · intro k t hk
    obtain ⟨j, hover, hfield⟩ := exists_passedOver hk
    exact ⟨j, hover, hover.blankBetween_iff (nextStart_le_size hk), hfield⟩

theorem tokenize_stray_tilde :
    tokenize "^FD5~7 kg^FS" = [⟨"^FD5".toList, 0⟩, ⟨"^FS".toList, 9⟩] := by
  rw [tokenize_eq]
  rfl

theorem commandStart_stray_tilde : CommandStart "^FD5~7 kg^FS".toUTF8 0 :=
  ⟨0x5e, 0x46, by decide, by decide, .inl ⟨rfl, .inl (.inl (by decide))⟩⟩

/-- Behind a field that a stray tilde ends, the next command comes after what is passed over. -/
theorem tokenize_passes_over_tilde :
    CommandStart "^FD5~7 kg^FS".toUTF8 0 ∧
      ∃ j, PassedOver "^FD5~7 kg^FS" ⟨"^FD5".toList, 0⟩ j 9 ∧
        FieldUpTo "^FD5~7 kg^FS" ⟨"^FD5".toList, 0⟩ j := by
  have hnext : nextStart "^FD5~7 kg^FS" 0 = 9 := by rw [nextStart, tokenize_stray_tilde]; rfl
  obtain ⟨j, hover, -, hfield⟩ := (tokenize_passes_over _ commandStart_stray_tilde).2 0
    ⟨"^FD5".toList, 0⟩ (by rw [tokenize_stray_tilde]; rfl)
  rw [hnext] at hover
  exact ⟨commandStart_stray_tilde, j, hover, hfield rfl⟩

/-- A tilde before a digit cuts a field short, and the text behind it is lost. -/
theorem stray_tilde_cuts_field :
    CommandStart "^FD5~7 kg^FS".toUTF8 0 ∧
      ¬ ∀ k t, (tokenize "^FD5~7 kg^FS")[k]? = some t →
        BlankBetween "^FD5~7 kg^FS" t.stop (nextStart "^FD5~7 kg^FS" k) := by
  refine ⟨commandStart_stray_tilde, fun h => ?_⟩
  have hnext : nextStart "^FD5~7 kg^FS" 0 = 9 := by rw [nextStart, tokenize_stray_tilde]; rfl
  have hblank := h 0 ⟨"^FD5".toList, 0⟩ (by rw [tokenize_stray_tilde]; rfl)
  rw [hnext] at hblank
  exact not_leaderByte_of_blankBetween (k := 4) hblank (by decide) (by decide)
    (by decide : "^FD5~7 kg^FS".toUTF8[4]? = some 0x7e) (.inr rfl)

end LabelFleet.Markup
