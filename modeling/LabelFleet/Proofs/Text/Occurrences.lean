import LabelFleet.Proofs.Text.Bytes
import LabelFleet.Proofs.Text.Searching
import LabelFleet.Proofs.Text.Trimming

/-! The places of one text inside another. A place is the number of bytes in front of it, and
trimming a text hides no place of a part that has no blank characters at its own ends. -/
namespace LabelFleet.Text

/-- At byte `i` of the text stands `part`, and behind it `rest`. -/
def StandsAt (part s : String) (i : Nat) (rest : String) : Prop :=
  ∃ before : String, s = before ++ part ++ rest ∧ before.utf8ByteSize = i

/-- At byte `i` of the text stands `part`. -/
def OccursAt (part s : String) (i : Nat) : Prop := ∃ rest, StandsAt part s i rest

theorem standsAt_iff {part s rest : String} {i : Nat} :
    StandsAt part s i rest ↔
      ∃ before, s.toList = before ++ (part.toList ++ rest.toList) ∧ byteLength before = i := by
  constructor
  · rintro ⟨before, rfl, rfl⟩
    refine ⟨before.toList, ?_, (utf8ByteSize_eq before).symm⟩
    simp
  · rintro ⟨before, hs, rfl⟩
    refine ⟨String.ofList before, ?_, utf8ByteSize_ofList before⟩
    apply String.ext
    simp [hs]

theorem exists_occursAt_iff {part s : String} :
    (∃ i, OccursAt part s i) ↔ part.toList <:+: s.toList := by
  simp only [OccursAt, standsAt_iff]
  constructor
  · rintro ⟨_, rest, before, hs, -⟩
    exact ⟨before, rest.toList, by rw [hs, List.append_assoc]⟩
  · rintro ⟨before, rest, hs⟩
    exact ⟨_, String.ofList rest, before, by simp [← hs], rfl⟩

section Padding

variable {part blanks s : List Char}

theorem infix_blank_append (hne : part ≠ []) (hhead : ∀ c ∈ part.head?, isBlank c = false)
    (hblanks : ∀ c ∈ blanks, isBlank c = true) : part <:+: blanks ++ s ↔ part <:+: s := by
  induction blanks with
  | nil => rfl
  | cons b blanks ih =>
    have hb : isBlank b = true := hblanks b List.mem_cons_self
    rw [List.cons_append, List.infix_cons_iff, ih fun c hc => hblanks c (.tail b hc)]
    apply or_iff_right
    intro hstart
    obtain ⟨c, part, rfl⟩ := List.exists_cons_of_ne_nil hne
    obtain ⟨rfl, -⟩ := List.cons_prefix_cons.mp hstart
    simp [hhead c rfl] at hb

theorem infix_append_blank (hne : part ≠ []) (hlast : ∀ c ∈ part.getLast?, isBlank c = false)
    (hblanks : ∀ c ∈ blanks, isBlank c = true) : part <:+: s ++ blanks ↔ part <:+: s := by
  rw [← List.reverse_infix, List.reverse_append, infix_blank_append, List.reverse_infix]
  · simpa using hne
  · simpa using hlast
  · simpa using hblanks

/-- A part that is not padded is found in a trimmed text exactly if it is in the whole one. -/
theorem infix_trim_iff (hne : part ≠ []) (h : Unpadded part) : part <:+: trim s ↔ part <:+: s := by
  obtain ⟨front, back, hs, hfront, hback, -⟩ := trimmed_trim s
  conv_rhs => rw [hs]
  rw [infix_append_blank hne h.2 hback, infix_blank_append hne h.1 hfront]

end Padding

end LabelFleet.Text
