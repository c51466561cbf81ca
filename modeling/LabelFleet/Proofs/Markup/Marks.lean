import LabelFleet.Proofs.Markup.Scanning
import LabelFleet.Proofs.Text.Occurrences

/-! Looking for marks in a markup. A mark is a caret before two letters or digits, so every place
at which it stands is the start of a command, and trimming takes nothing off it: the places of a
mark are those of the commands with its opcode. -/
namespace LabelFleet.Markup
open Text

namespace Opcode

variable {op : Opcode} {mark : String} {text : List Char}

theorem mark?_toList (h : op.mark? = some mark) :
    ∃ d e, mark.toList = ['^', d, e] ∧ d.isAlphanum = true ∧ e.isAlphanum = true := by
  cases op <;> simp only [mark?, Option.some.injEq, reduceCtorEq] at h
  all_goals
    subst h
    exact ⟨_, _, rfl, rfl, rfl⟩

theorem mark?_injective {a b : Opcode} (h : a.mark? = b.mark?) : a = b := by
  revert h; cases a <;> cases b <;> decide

theorem marks_iff : marks text op = true ↔ ∃ mark, op.mark? = some mark ∧ mark.toList <+: text := by
  unfold marks
  split
  · next mark h => simp [h, begins_iff]
  · next h => simp [h]

/-- At most one opcode has a mark at the start of a text. -/
theorem marks_unique {a b : Opcode} (ha : marks text a = true) (hb : marks text b = true) :
    a = b := by
  obtain ⟨m, hm, hmt⟩ := marks_iff.mp ha
  obtain ⟨n, hn, hnt⟩ := marks_iff.mp hb
  obtain ⟨d, e, hm3, -⟩ := mark?_toList hm
  obtain ⟨f, g, hn3, -⟩ := mark?_toList hn
  have hlen : m.toList.length = n.toList.length := by simp [hm3, hn3]
  have hmn : m.toList <+: n.toList := List.prefix_of_prefix_length_le hmt hnt hlen.le
  obtain rfl := String.toList_inj.mp (hmn.eq_of_length hlen)
  exact mark?_injective (hm.trans hn.symm)

/-- A text is classified by the mark that it begins with. -/
theorem classify_eq_iff (h : op.mark? = some mark) :
    classify text = op ↔ mark.toList <+: text := by
  have hop : op ≠ other := by
    rintro rfl
    simp [mark?] at h
  have hmarks : marks text op = true ↔ mark.toList <+: text := by
    rw [marks_iff]
    simp [h]
  rw [← hmarks, classify]
  constructor
  · intro hc
    cases hf : recognized.find? (marks text) with
    | none => simp [hf, eq_comm, hop] at hc
    | some a =>
      have ha := List.find?_some hf
      simp only [hf, Option.getD_some] at hc
      rwa [hc] at ha
  · intro hm
    have hmem : op ∈ recognized := by
      cases op <;> first | contradiction | decide
    cases hf : recognized.find? (marks text) with
    | none => exact absurd hm (List.find?_eq_none.mp hf op hmem)
    | some a => exact marks_unique (List.find?_some hf) hm

end Opcode

/-- The argument that a command takes from the text behind its mark: all up to the next leader,
without the blank characters at the end. -/
def payload (rest : List Char) : List Char := trimEnd (rest.takeWhile fun c => !isLeader c)

theorem payload_prefix_self (rest : List Char) : payload rest <+: rest :=
  (trimEnd_prefix_self _).trans (List.takeWhile_prefix _)

/-- The payload begins with whatever the text behind the mark begins with, as long as there are no
leaders and no blank characters in it. -/
theorem prefix_payload_iff {start rest : List Char}
    (h : ∀ c ∈ start, isLeader c = false ∧ isBlank c = false) :
    start <+: payload rest ↔ start <+: rest := by
  constructor
  · exact fun hstart => hstart.trans (payload_prefix_self rest)
  · rintro ⟨more, rfl⟩
    rw [payload, List.takeWhile_append_of_pos fun c hc => by simp [(h c hc).1],
      trimEnd_append_of_not_blank fun c hc => (h c hc).2]
    exact List.prefix_append _ _

theorem startsCommand_caret {d : Char} (hd : d.isAlphanum = true) (rest : List Char) :
    startsCommand '^' (d :: rest) = true :=
  startsCommand_iff.mpr ⟨d, rest, rfl, .inl ⟨rfl, hd⟩⟩

/-- A mark and the payload behind it make up the text of a command. -/
theorem trimEnd_rawText_mark {d e : Char} (hd : d.isAlphanum = true) (he : e.isAlphanum = true)
    (rest : List Char) :
    trimEnd (rawText '^' (d :: e :: rest)) = '^' :: d :: e :: payload rest := by
  have hd' := not_isLeader_of_isAlphanum hd
  have he' := not_isLeader_of_isAlphanum he
  rw [rawText, List.takeWhile_cons_of_pos (by simp [hd']),
    List.takeWhile_cons_of_pos (by simp [he']), trimEnd_cons_of_not_blank rfl,
    trimEnd_cons_of_not_blank (not_isBlank_of_isAlphanum hd),
    trimEnd_cons_of_not_blank (not_isBlank_of_isAlphanum he), payload]

variable {markup mark : String} {op : Opcode} {t : Token} {i : Nat}

/-- The commands with an opcode stand where its mark does and end where the payload behind it
ends. -/
theorem mem_tokenize_mark_iff (h : op.mark? = some mark) :
    t ∈ tokenize markup ∧ t.opcode = op ↔
      ∃ rest, StandsAt mark markup t.start rest ∧ t.text = mark.toList ++ payload rest.toList := by
  obtain ⟨d, e, hmark, hd, he⟩ := Opcode.mark?_toList h
  simp only [mem_tokenize_iff, Token.opcode, Opcode.classify_eq_iff h, standsAt_iff, hmark]
  constructor
  · rintro ⟨⟨before, c, rest, hs, -, rfl⟩, hfront⟩
    obtain ⟨more, hmore⟩ :=
      (hfront.trans (trimEnd_prefix_self (rawText c rest))).trans (rawText_prefix_cons c rest)
    obtain ⟨rfl, rfl⟩ := List.cons.inj hmore
    exact ⟨String.ofList more, ⟨before, by simpa using hs, rfl⟩,
      by simpa using trimEnd_rawText_mark hd he more⟩
  · rintro ⟨rest, ⟨before, hs, hstart⟩, htext⟩
    refine ⟨⟨before, '^', d :: e :: rest.toList, hs, startsCommand_caret hd _, ?_⟩, ?_⟩
    · rw [trimEnd_rawText_mark hd he, hstart]
      exact congrArg (Token.mk · t.start) htext
    · rw [htext]
      exact List.prefix_append _ _

theorem args_eq_payload (h : op.mark? = some mark) {rest : List Char}
    (ht : t.text = mark.toList ++ payload rest) : t.args = payload rest := by
  obtain ⟨d, e, hmark, -⟩ := Opcode.mark?_toList h
  rw [Token.args, ht, hmark]
  rfl

theorem mem_tokenize_of_standsAt (h : op.mark? = some mark) {rest : String}
    (hrest : StandsAt mark markup i rest) :
    ∃ t ∈ tokenize markup, t.start = i ∧ t.opcode = op ∧ t.args = payload rest.toList := by
  obtain ⟨ht, hop⟩ := (mem_tokenize_mark_iff (t := ⟨mark.toList ++ payload rest.toList, i⟩) h).mpr
    ⟨rest, hrest, rfl⟩
  exact ⟨_, ht, rfl, hop, args_eq_payload h rfl⟩

theorem standsAt_of_mem_tokenize (h : op.mark? = some mark) (ht : t ∈ tokenize markup)
    (hop : t.opcode = op) :
    ∃ rest, StandsAt mark markup t.start rest ∧ t.args = payload rest.toList := by
  obtain ⟨rest, hrest, htext⟩ := (mem_tokenize_mark_iff h).mp ⟨ht, hop⟩
  exact ⟨rest, hrest, args_eq_payload h htext⟩

/-- The commands with an opcode start exactly where its mark stands. -/
theorem exists_mem_tokenize_iff (h : op.mark? = some mark) :
    (∃ t ∈ tokenize markup, t.opcode = op ∧ t.start = i) ↔ OccursAt mark markup i := by
  constructor
  · rintro ⟨t, ht, hop, rfl⟩
    obtain ⟨rest, hrest, -⟩ := standsAt_of_mem_tokenize h ht hop
    exact ⟨rest, hrest⟩
  · rintro ⟨rest, hrest⟩
    obtain ⟨t, ht, hi, hop, -⟩ := mem_tokenize_of_standsAt h hrest
    exact ⟨t, ht, hop, hi⟩

end LabelFleet.Markup
