import LabelFleet.Markup.Interpret
import LabelFleet.Proofs.Markup.Scanning
import LabelFleet.Proofs.Text.Bytes
import LabelFleet.Proofs.Text.Searching
import Mathlib.Data.List.TakeWhile

/-! Commands of texts that are put together. Where the second text begins with a leader, no command
reaches across the border and none is born there, and blank characters at the border belong to no
command. What a list of commands draws does not depend on where they stand, so a markup can be
spread out and closed up again at will. -/
namespace LabelFleet.Markup
open Text

namespace Token

/-- The same command, so many bytes further on. -/
def later (n : Nat) (t : Token) : Token := ⟨t.text, t.start + n⟩

@[simp] theorem text_later (n : Nat) (t : Token) : (t.later n).text = t.text := rfl

@[simp] theorem start_later (n : Nat) (t : Token) : (t.later n).start = t.start + n := rfl

@[simp] theorem stop_later (n : Nat) (t : Token) : (t.later n).stop = t.stop + n := by
  simp [stop, Nat.add_right_comm]

end Token

theorem commandsFrom_add (offset n : Nat) (s : List Char) :
    commandsFrom (offset + n) s = (commandsFrom offset s).map (Token.later n) := by
  induction s generalizing offset with
  | nil => rfl
  | cons c s ih =>
    rw [commandsFrom, commandsFrom, Nat.add_right_comm, ih]
    split <;> rfl

section Border

variable {w b : List Char}

/-- Neither a letter nor a digit stands behind the border. -/
theorem not_isAlphanum_border (hw : ∀ c ∈ w, isBlank c = true)
    (hb : ∀ c ∈ b.head?, isLeader c = true) : ∀ c ∈ (w ++ b).head?, c.isAlphanum = false := by
  intro c hc
  rw [Bool.eq_false_iff]
  intro halnum
  cases w with
  | nil => exact absurd (hb c hc) (by simp [not_isLeader_of_isAlphanum halnum])
  | cons d w =>
    obtain rfl : d = c := by simpa using hc
    exact absurd (hw d List.mem_cons_self) (by simp [not_isBlank_of_isAlphanum halnum])

/-- The character behind a leader decides whether a command starts. If it stands behind the border,
none does. -/
theorem startsCommand_append {more : List Char} (h : ∀ c ∈ more.head?, c.isAlphanum = false)
    (c : Char) (s : List Char) : startsCommand c (s ++ more) = startsCommand c s := by
  cases s with
  | cons d s => rfl
  | nil =>
    rw [List.nil_append, Bool.eq_iff_iff, startsCommand_iff, startsCommand_iff]
    constructor
    · rintro ⟨d, more, rfl, hd⟩
      have hd : d.isAlphanum = true := hd.elim And.right fun h => isAlphanum_iff.mpr (.inl h.2)
      rw [h d rfl] at hd
      contradiction
    · rintro ⟨d, more, hnil, -⟩
      contradiction

/-- The text of a command ends at the border at the latest. -/
theorem trimEnd_rawText_append (hw : ∀ c ∈ w, isBlank c = true)
    (hb : ∀ c ∈ b.head?, isLeader c = true) (c : Char) (s : List Char) :
    trimEnd (rawText c (s ++ (w ++ b))) = trimEnd (rawText c s) := by
  rw [rawText, rawText, List.takeWhile_append]
  split
  · next hall =>
    have hborder : (w ++ b).takeWhile (fun d => !isLeader d) = w := by
      apply takeWhile_append_stop
      · exact fun d hd => by simp [not_isLeader_of_isBlank (hw d hd)]
      · exact fun d hd => by simp [hb d hd]
    rw [hborder, (List.takeWhile_prefix _).eq_of_length hall, ← List.cons_append,
      trimEnd_append_of_blank _ hw]
  · rfl

/-- The texts on both sides of a border are cut into commands each by itself. -/
theorem commandsFrom_append_border (hw : ∀ c ∈ w, isBlank c = true)
    (hb : ∀ c ∈ b.head?, isLeader c = true) (offset : Nat) (s : List Char) :
    commandsFrom offset (s ++ (w ++ b)) =
      commandsFrom offset s ++ commandsFrom (offset + byteLength (s ++ w)) b := by
  induction s generalizing offset with
  | nil => exact commandsFrom_append (fun d hd => not_isLeader_of_isBlank (hw d hd)) offset b
  | cons c s ih =>
    have hstarts := startsCommand_append (not_isAlphanum_border hw hb) c s
    have hbyte : offset + c.utf8Size + byteLength (s ++ w) = offset + byteLength (c :: s ++ w) := by
      rw [List.cons_append, byteLength, Nat.add_assoc]
    rw [List.cons_append, commandsFrom, commandsFrom, hstarts, trimEnd_rawText_append hw hb,
      ih, hbyte]
    split <;> rfl

end Border

/-- The commands of two texts with blank characters between them are those of both, if the second
text begins with a leader. -/
theorem tokenize_append_border {a w b : String} (hw : ∀ c ∈ w.toList, isBlank c = true)
    (hb : ∀ c ∈ b.toList.head?, isLeader c = true) :
    tokenize (a ++ w ++ b) =
      tokenize a ++ (tokenize b).map (Token.later (a ++ w).utf8ByteSize) := by
  rw [tokenize_eq, tokenize_eq, tokenize_eq, utf8ByteSize_eq, String.toList_append,
    String.toList_append, List.append_assoc, commandsFrom_append_border hw hb, commandsFrom_add]

theorem map_text_tokenize_append {a w b : String} (hw : ∀ c ∈ w.toList, isBlank c = true)
    (hb : ∀ c ∈ b.toList.head?, isLeader c = true) :
    (tokenize (a ++ w ++ b)).map Token.text =
      (tokenize a).map Token.text ++ (tokenize b).map Token.text := by
  rw [tokenize_append_border hw hb, List.map_append, List.map_map]
  rfl

/-! ### Closing up -/

/-- The text of a command is a command by itself, and the only one in it. -/
theorem commandsFrom_trimEnd_rawText {c : Char} {rest : List Char}
    (h : startsCommand c rest = true) (offset : Nat) :
    commandsFrom offset (trimEnd (rawText c rest)) = [⟨trimEnd (rawText c rest), offset⟩] := by
  obtain ⟨d, body, htext, hplain⟩ := trimEnd_rawText h
  obtain ⟨more, hmore⟩ := (trimEnd_prefix_self (rawText c rest)).trans (rawText_prefix_cons c rest)
  have htrim := trimEnd_trimEnd (rawText c rest)
  rw [htext] at hmore htrim ⊢
  have hraw : rawText c (d :: body) = c :: d :: body := by
    rw [rawText, List.takeWhile_eq_self_iff.mpr]
    exact fun e he => by simp [hplain e he]
  have hstarts : startsCommand c (d :: body) = true := by
    obtain ⟨-, rfl⟩ := List.cons.inj hmore
    exact h
  have hnone := commandsFrom_append hplain (offset + c.utf8Size) []
  rw [List.append_nil] at hnone
  rw [commandsFrom, if_pos hstarts, hraw, htrim, hnone]
  rfl

/-- The texts of all commands of a markup, one right behind the other. -/
def closedUp (markup : String) : String := String.ofList ((tokenize markup).flatMap Token.text)

theorem map_text_commandsFrom_flatMap {ts : List Token}
    (h : ∀ t ∈ ts, ∃ c rest, startsCommand c rest = true ∧ t.text = trimEnd (rawText c rest))
    (offset : Nat) :
    (commandsFrom offset (ts.flatMap Token.text)).map Token.text = ts.map Token.text := by
  induction ts generalizing offset with
  | nil => rfl
  | cons t ts ih =>
    have hts := fun u hu => h u (List.mem_cons_of_mem t hu)
    obtain ⟨c, rest, hstarts, ht⟩ := h t List.mem_cons_self
    have hborder : ∀ e ∈ (ts.flatMap Token.text).head?, isLeader e = true := by
      cases ts with
      | nil => simp
      | cons u ts =>
        obtain ⟨f, more, hf, hu⟩ := hts u List.mem_cons_self
        obtain ⟨g, body, htext, -⟩ := trimEnd_rawText hf
        rw [List.flatMap_cons, hu, htext]
        rintro e ⟨⟩
        exact isLeader_of_startsCommand hf
    have hsplit := commandsFrom_append_border (w := []) (by simp) hborder offset t.text
    rw [List.nil_append] at hsplit
    rw [List.flatMap_cons, hsplit, ht, commandsFrom_trimEnd_rawText hstarts, List.map_append,
      ih hts, List.map_cons (l := ts), ht]
    rfl

theorem map_text_tokenize_closedUp (markup : String) :
    (tokenize (closedUp markup)).map Token.text = (tokenize markup).map Token.text := by
  rw [tokenize_eq (closedUp markup), closedUp, String.toList_ofList]
  apply map_text_commandsFrom_flatMap
  intro t ht
  obtain ⟨before, c, rest, -, hstarts, rfl⟩ := mem_tokenize_iff.mp ht
  exact ⟨c, rest, hstarts, rfl⟩

example : closedUp "top ^FO1,2 \n^^FDa b ~1" = "^FO1,2^FDa b" := by cbv

/-! ### Places do not count -/

theorem map_opcode_congr {ts us : List Token} (h : ts.map Token.text = us.map Token.text) :
    ts.map Token.opcode = us.map Token.opcode := by
  have hopcode : Token.opcode = Opcode.classify ∘ Token.text := rfl
  rw [hopcode, ← List.map_map, h, List.map_map]

/-- Commands with the same texts draw the same. -/
theorem interpretFrom_congr {ts us : List Token} (h : ts.map Token.text = us.map Token.text)
    (c : Cursor) : interpretFrom c ts = interpretFrom c us := by
  induction ts generalizing us c with
  | nil =>
    rw [List.map_nil, eq_comm, List.map_eq_nil_iff] at h
    rw [h]
  | cons t ts ih =>
    cases us with
    | nil => simp at h
    | cons u us =>
      obtain ⟨htext, hrest⟩ := List.cons.inj h
      have hdraw : draw? c t = draw? c u := by
        rw [draw?, draw?, Token.opcode, Token.opcode, Token.args, Token.args, htext]
      have hadvance : advance c t = advance c u := by
        rw [advance, advance, Token.opcode, Token.opcode, Token.args, Token.args, htext]
      rw [interpretFrom, interpretFrom, hdraw, hadvance, ih hrest]

theorem interpret_congr {ts us : List Token} (h : ts.map Token.text = us.map Token.text)
    (options : Options) : interpret options ts = interpret options us :=
  interpretFrom_congr h _

end LabelFleet.Markup
