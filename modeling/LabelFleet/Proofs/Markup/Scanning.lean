import LabelFleet.Markup.Token
import LabelFleet.Proofs.Text.Trimming

/-! The scanner finds a command at every place at which one starts. It leaps from the leader of one
command to the next leader; no command starts in between, so nothing is missed. -/
namespace LabelFleet.Markup
open Text

/-- The text of the command with leader `c` when `rest` follows it. -/
def rawText (c : Char) (rest : List Char) : List Char := c :: rest.takeWhile fun d => !isLeader d

theorem rawText_prefix_cons (c : Char) (rest : List Char) : rawText c rest <+: c :: rest :=
  (List.prefix_cons_inj c).mpr (List.takeWhile_prefix _)

/-- One command for each place of a text at which a command starts. -/
def commandsFrom (offset : Nat) : List Char → List Token
  | [] => []
  | c :: rest =>
    if startsCommand c rest then
      ⟨trimEnd (rawText c rest), offset⟩ :: commandsFrom (offset + c.utf8Size) rest
    else commandsFrom (offset + c.utf8Size) rest

theorem isLeader_iff {c : Char} : isLeader c = true ↔ c = '^' ∨ c = '~' := by
  simp [isLeader]

/-- A command starts at a caret before a letter or digit, or at a tilde before a letter. -/
theorem startsCommand_iff {c : Char} {rest : List Char} :
    startsCommand c rest = true ↔ ∃ d more, rest = d :: more ∧
      (c = '^' ∧ d.isAlphanum = true ∨ c = '~' ∧ d.isAlpha = true) := by
  cases rest with
  | nil => simp [startsCommand]
  | cons d more =>
    by_cases hc : c = '^'
    · subst hc; simp [startsCommand]
    · by_cases ht : c = '~'
      · subst ht; simp [startsCommand]
      · simp [startsCommand, hc, ht]

theorem isLeader_of_startsCommand {c : Char} {rest : List Char}
    (h : startsCommand c rest = true) : isLeader c = true := by
  obtain ⟨d, more, -, hc⟩ := startsCommand_iff.mp h
  exact isLeader_iff.mpr (hc.imp And.left And.left)

theorem not_isLeader_of_isAlphanum {c : Char} (h : c.isAlphanum = true) : isLeader c = false := by
  rw [Bool.eq_false_iff, Ne, isLeader_iff]
  rintro (rfl | rfl) <;> exact absurd h (by decide)

theorem not_isBlank_of_isLeader {c : Char} (h : isLeader c = true) : isBlank c = false := by
  rcases isLeader_iff.mp h with rfl | rfl <;> decide

theorem not_isLeader_of_isBlank {c : Char} (h : isBlank c = true) : isLeader c = false := by
  rw [Bool.eq_false_iff]
  intro hlead
  rw [not_isBlank_of_isLeader hlead] at h
  contradiction

/-- Trimming leaves the leader of a command and the character after it, and no further leader. -/
theorem trimEnd_rawText {c : Char} {rest : List Char} (h : startsCommand c rest = true) :
    ∃ d body, trimEnd (rawText c rest) = c :: d :: body ∧ ∀ e ∈ d :: body, isLeader e = false := by
  have hc := isLeader_of_startsCommand h
  obtain ⟨d, more, rfl, hd⟩ := startsCommand_iff.mp h
  have hd : d.isAlphanum = true := hd.elim And.right fun h => isAlphanum_iff.mpr (.inl h.2)
  have hlead := not_isLeader_of_isAlphanum hd
  refine ⟨d, trimEnd (more.takeWhile fun e => !isLeader e), ?_, ?_⟩
  · rw [rawText, List.takeWhile_cons_of_pos (by simp [hlead]),
      trimEnd_cons_of_not_blank (not_isBlank_of_isLeader hc),
      trimEnd_cons_of_not_blank (not_isBlank_of_isAlphanum hd)]
  · intro e he
    rcases List.mem_cons.mp he with rfl | he
    · exact hlead
    · simpa using List.all_eq_true.mp List.all_takeWhile e (mem_of_mem_trimEnd he)

/-- No command starts in a text without leaders. -/
theorem commandsFrom_append {body : List Char} (h : ∀ c ∈ body, isLeader c = false)
    (offset : Nat) (rest : List Char) :
    commandsFrom offset (body ++ rest) = commandsFrom (offset + byteLength body) rest := by
  induction body generalizing offset with
  | nil => simp [byteLength]
  | cons c body ih =>
    have hc : ¬ startsCommand c (body ++ rest) = true := fun hs => by
      simpa [h c] using isLeader_of_startsCommand hs
    rw [List.cons_append, commandsFrom, if_neg hc, ih fun d hd => h d (List.mem_cons_of_mem c hd),
      byteLength, Nat.add_assoc]

namespace Scanner

/-- What one leap finds is the first of the commands, and it lands before all the others. -/
theorem commandsFrom_of_nextFrom (offset : Nat) (text : List Char) :
    commandsFrom offset text =
      match nextFrom offset text with
      | none => []
      | some (t, later) => t :: commandsFrom later.offset later.rest := by
  induction text generalizing offset with
  | nil => rfl
  | cons c rest ih =>
    rw [commandsFrom, nextFrom]
    split
    · have hbody : ∀ d ∈ rest.takeWhile (fun d => !isLeader d), isLeader d = false := by
        intro d hd
        simpa using List.all_eq_true.mp List.all_takeWhile d hd
      have hskip := commandsFrom_append hbody (offset + c.utf8Size)
        (rest.dropWhile fun d => !isLeader d)
      rw [List.takeWhile_append_dropWhile] at hskip
      simp only [rawText, hskip, byteLength, Nat.add_assoc]
    · exact ih _

/-- The scanner finds exactly the commands of the text that is left. -/
theorem tokens_eq (s : Scanner) : s.tokens = commandsFrom s.offset s.rest := by
  fun_induction tokens s with
  | case1 s h => rw [commandsFrom_of_nextFrom, ← next?, h]
  | case2 s t later h ih => rw [commandsFrom_of_nextFrom, ← next?, h, ih]

end Scanner

theorem tokenize_eq (markup : String) : tokenize markup = commandsFrom 0 markup.toList :=
  Scanner.tokens_eq _

theorem mem_commandsFrom_iff {offset : Nat} {text : List Char} {t : Token} :
    t ∈ commandsFrom offset text ↔ ∃ before c rest, text = before ++ c :: rest ∧
      startsCommand c rest = true ∧
      t = ⟨trimEnd (rawText c rest), offset + byteLength before⟩ := by
  induction text generalizing offset with
  | nil => simp [commandsFrom]
  | cons c rest ih =>
    have later : t ∈ commandsFrom (offset + c.utf8Size) rest ↔ ∃ before d more,
        c :: rest = (c :: before) ++ d :: more ∧ startsCommand d more = true ∧
        t = ⟨trimEnd (rawText d more), offset + byteLength (c :: before)⟩ := by
      simp only [ih, List.cons_append, List.cons.injEq, true_and, byteLength, Nat.add_assoc]
    rw [commandsFrom]
    constructor
    · intro h
      split at h
      · next hs =>
        rcases List.mem_cons.mp h with rfl | h
        · exact ⟨[], c, rest, rfl, hs, by simp [byteLength]⟩
        · obtain ⟨before, hb⟩ := later.mp h
          exact ⟨c :: before, hb⟩
      · obtain ⟨before, hb⟩ := later.mp h
        exact ⟨c :: before, hb⟩
    · rintro ⟨before, d, more, htext, hs, ht⟩
      cases before with
      | nil =>
        obtain ⟨rfl, rfl⟩ := List.cons.inj htext
        rw [if_pos hs]
        exact List.mem_cons.mpr (.inl (by simpa [byteLength] using ht))
      | cons b before =>
        obtain ⟨rfl, hrest⟩ := List.cons.inj htext
        have hm := later.mpr ⟨before, d, more, htext, hs, ht⟩
        split
        · exact List.mem_cons_of_mem _ hm
        · exact hm

/-- The commands of a markup are the trimmed texts at the places at which one starts. -/
theorem mem_tokenize_iff {markup : String} {t : Token} :
    t ∈ tokenize markup ↔ ∃ before c rest, markup.toList = before ++ c :: rest ∧
      startsCommand c rest = true ∧ t = ⟨trimEnd (rawText c rest), byteLength before⟩ := by
  simp only [tokenize_eq, mem_commandsFrom_iff, Nat.zero_add]

end LabelFleet.Markup
