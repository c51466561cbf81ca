import LabelFleet.Preview
import LabelFleet.Proofs.Markup.Marks
import LabelFleet.Proofs.Markup.Spacing

/-! What kind of preview a text gets. The kind is found by looking for a mark in the trimmed text;
it is the one that the commands of the whole text would give. A label's preview depends on nothing
but the texts of its commands, so blank characters between commands do not show in it. -/
namespace LabelFleet
open Markup Text

theorem mark?_startFormat : Opcode.startFormat.mark? = some startOfLabel := rfl

theorem unpadded_startOfLabel : Unpadded startOfLabel.toList :=
  unpadded_of_ends rfl rfl

theorem classify_eq_blank_iff {markup : String} :
    classify markup = .blank ↔ ∀ c ∈ markup.toList, isBlank c = true := by
  rw [← trim_eq_nil_iff, ← List.isEmpty_iff, classify]
  split
  · next h => simpa using h
  · next h =>
    split <;> simpa using h

theorem classify_eq_label_iff {markup : String} :
    classify markup = .label ↔ startOfLabel.toList <:+: markup.toList := by
  rw [← infix_trim_iff (by decide) unpadded_startOfLabel, ← occurs_iff, classify]
  split
  · next h =>
    rw [List.isEmpty_iff.mp h]
    decide
  · split
    · next h => simpa using h
    · next h => simpa using h

/-- A text is a label exactly if one of its commands starts a format. -/
theorem classify_eq_label_iff_startFormat {markup : String} :
    classify markup = .label ↔ ∃ t ∈ tokenize markup, t.opcode = .startFormat := by
  rw [classify_eq_label_iff, ← exists_occursAt_iff]
  simp only [← exists_mem_tokenize_iff mark?_startFormat]
  constructor
  · rintro ⟨i, t, ht, hop, -⟩
    exact ⟨t, ht, hop⟩
  · rintro ⟨t, ht, hop⟩
    exact ⟨t.start, t, ht, hop, rfl⟩

/-- No command starts in a text without any printed character. -/
theorem tokenize_of_blank {markup : String} (h : ∀ c ∈ markup.toList, isBlank c = true) :
    tokenize markup = [] := by
  rw [List.eq_nil_iff_forall_not_mem]
  intro t ht
  obtain ⟨before, c, rest, hs, hstart, -⟩ := mem_tokenize_iff.mp ht
  have hc : isBlank c = true := h c (by simp [hs])
  rw [not_isBlank_of_isLeader (isLeader_of_startsCommand hstart)] at hc
  contradiction

/-- Texts with the same commands are labels or not together. -/
theorem classify_eq_label_congr {a b : String}
    (h : (tokenize a).map Token.text = (tokenize b).map Token.text) :
    classify a = .label ↔ classify b = .label := by
  have hmem : ∀ s : String, classify s = .label ↔
      Opcode.startFormat ∈ (tokenize s).map Token.opcode := by
    simp [classify_eq_label_iff_startFormat]
  rw [hmem, hmem, map_opcode_congr h]

namespace Preview

variable {options : Options} {markup : String}

theorem ofMarkup_of_label (h : classify markup = .label) :
    ofMarkup options markup = label (Canvas.render (interpret options (tokenize markup))) := by
  rw [ofMarkup, h]

theorem ofMarkup_congr {a b : String}
    (h : (tokenize a).map Token.text = (tokenize b).map Token.text)
    (hb : classify b = .label) (options : Options) : ofMarkup options a = ofMarkup options b := by
  rw [ofMarkup_of_label ((classify_eq_label_congr h).mpr hb), ofMarkup_of_label hb,
    interpret_congr h]

theorem kind_ofMarkup (options : Options) (markup : String) :
    (ofMarkup options markup).kind = classify markup := by
  rw [ofMarkup]
  cases classify markup <;> rfl

theorem ofMarkup_eq_controlCommand_iff {command : String} :
    ofMarkup options markup = controlCommand command ↔
      classify markup = .controlCommand ∧ Text.trimmed markup = command := by
  rw [ofMarkup]
  cases classify markup <;> simp

end Preview

/-- Searching and tokenizing agree. The commands with an opcode start exactly at the places of its
mark; a text is a label if one of its commands starts a format, and blank if it has no printed
character, and then it has no commands; its preview is of its kind, and a control command is shown
without the blank characters around it and never starts a format. -/
theorem search_agrees (markup : String) :
    (∀ op mark, op.mark? = some mark → ∀ i,
        (∃ t ∈ tokenize markup, t.opcode = op ∧ t.start = i) ↔ OccursAt mark markup i) ∧
      (classify markup = .label ↔ ∃ t ∈ tokenize markup, t.opcode = .startFormat) ∧
      (classify markup = .blank ↔ ∀ c ∈ markup.toList, isBlank c = true) ∧
      (classify markup = .blank → tokenize markup = []) ∧
      ∀ options, (Preview.ofMarkup options markup).kind = classify markup ∧
        ∀ command, Preview.ofMarkup options markup = .controlCommand command →
          Trimmed markup.toList command.toList ∧
            ∀ t ∈ tokenize command, t.opcode ≠ .startFormat := by
  refine ⟨fun op mark h i => exists_mem_tokenize_iff h, classify_eq_label_iff_startFormat,
    classify_eq_blank_iff, fun h => tokenize_of_blank (classify_eq_blank_iff.mp h), ?_⟩
  intro options
  refine ⟨Preview.kind_ofMarkup options markup, ?_⟩
  intro command h
  obtain ⟨hkind, rfl⟩ := Preview.ofMarkup_eq_controlCommand_iff.mp h
  have htrim : (Text.trimmed markup).toList = trim markup.toList := String.toList_ofList
  refine ⟨htrim ▸ trimmed_trim markup.toList, fun t ht hop => ?_⟩
  have hlabel := classify_eq_label_iff_startFormat.mpr ⟨t, ht, hop⟩
  rw [classify_eq_label_iff, htrim, infix_trim_iff (by decide) unpadded_startOfLabel,
    ← classify_eq_label_iff, hkind] at hlabel
  contradiction

/-- A second leader and a last mark without text hide no command. -/
theorem search_agrees_doubled :
    (Opcode.startFormat.mark? = some "^XA" ∧ OccursAt "^XA" "~^^XA^FD" 2) ∧
      (∃ t ∈ tokenize "~^^XA^FD", t.opcode = .startFormat ∧ t.start = 2) ∧
      Preview.ofMarkup {} " ~HI\n" = .controlCommand "~HI" ∧
      ∀ t ∈ tokenize "~HI", t.opcode ≠ .startFormat := by
  have hplace : OccursAt "^XA" "~^^XA^FD" 2 := ⟨"^FD", "~^", by decide, by decide⟩
  have hpreview : Preview.ofMarkup {} " ~HI\n" = .controlCommand "~HI" := by
    rw [Preview.ofMarkup_eq_controlCommand_iff]
    decide
  refine ⟨⟨rfl, hplace⟩, ?_, hpreview, ?_⟩
  · exact ((search_agrees "~^^XA^FD").1 .startFormat "^XA" rfl 2).mpr hplace
  · exact (((search_agrees " ~HI\n").2.2.2.2 {}).2 "~HI" hpreview).2

/-- Spacing has no effect. Blank characters in front of a command, or at the end, leave all commands
as they are but for the places of those behind them; so the drawing stays the same, and a label
stays a label with the same preview. Closing up all commands of a markup keeps them and their
drawing. -/
theorem spacing_has_no_effect :
    (∀ a w b : String, (∀ c ∈ w.toList, isBlank c = true) →
        (∀ c ∈ b.toList.head?, c = '^' ∨ c = '~') →
        tokenize (a ++ w ++ b) =
            tokenize a ++ (tokenize b).map (Token.later (a ++ w).utf8ByteSize) ∧
          (∀ options, interpret options (tokenize (a ++ w ++ b)) =
            interpret options (tokenize (a ++ b))) ∧
          (classify (a ++ b) = .label → classify (a ++ w ++ b) = .label ∧
            ∀ options, Preview.ofMarkup options (a ++ w ++ b) =
              Preview.ofMarkup options (a ++ b))) ∧
      ∀ markup, (tokenize (closedUp markup)).map Token.text = (tokenize markup).map Token.text ∧
        (tokenize (closedUp markup)).map Token.opcode = (tokenize markup).map Token.opcode ∧
        ∀ options, interpret options (tokenize (closedUp markup)) =
          interpret options (tokenize markup) := by
  constructor
  · intro a w b hw hb
    have hb : ∀ c ∈ b.toList.head?, isLeader c = true := fun c hc => isLeader_iff.mpr (hb c hc)
    have htexts := (map_text_tokenize_append (a := a) hw hb).trans
      (map_text_tokenize_append (a := a) (w := "") (by simp) hb).symm
    rw [String.append_empty] at htexts
    exact ⟨tokenize_append_border hw hb, interpret_congr htexts,
      fun h => ⟨(classify_eq_label_congr htexts).mpr h, Preview.ofMarkup_congr htexts h⟩⟩
  · intro markup
    have htexts := map_text_tokenize_closedUp markup
    exact ⟨htexts, map_opcode_congr htexts, interpret_congr htexts⟩

/-- A leader at the end of the first text starts no command when a line break follows it. -/
theorem spacing_has_no_effect_dangling :
    (∀ c ∈ "\n".toList, isBlank c = true) ∧ (∀ c ∈ "^XA".toList.head?, c = '^' ∨ c = '~') ∧
      classify ("^FDa~" ++ "^XA") = .label ∧
      tokenize ("^FDa~" ++ "\n" ++ "^XA") =
        tokenize "^FDa~" ++ (tokenize "^XA").map (Token.later ("^FDa~" ++ "\n").utf8ByteSize) ∧
      Preview.ofMarkup {} ("^FDa~" ++ "\n" ++ "^XA") = Preview.ofMarkup {} ("^FDa~" ++ "^XA") := by
  have hw : ∀ c ∈ "\n".toList, isBlank c = true := by simp [isBlank]
  have hb : ∀ c ∈ "^XA".toList.head?, c = '^' ∨ c = '~' := by simp
  have hlabel : classify ("^FDa~" ++ "^XA") = .label := by decide
  obtain ⟨htokens, -, hpreview⟩ := spacing_has_no_effect.1 "^FDa~" "\n" "^XA" hw hb
  exact ⟨hw, hb, hlabel, htokens, (hpreview hlabel).2 {}⟩

end LabelFleet
