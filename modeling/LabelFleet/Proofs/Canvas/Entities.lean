import LabelFleet.Canvas.Html

/-! Reading escaped text back, and what cannot stand in it. -/
namespace LabelFleet.Canvas

/-- Puts the characters back for the entities, in one pass from left to right. -/
def unescape : List Char → List Char
  | '&' :: 'a' :: 'm' :: 'p' :: ';' :: s => '&' :: unescape s
  | '&' :: 'l' :: 't' :: ';' :: s => '<' :: unescape s
  | '&' :: 'g' :: 't' :: ';' :: s => '>' :: unescape s
  | '&' :: 'q' :: 'u' :: 'o' :: 't' :: ';' :: s => '"' :: unescape s
  | '&' :: '#' :: '3' :: '9' :: ';' :: s => '\'' :: unescape s
  | c :: s => c :: unescape s
  | [] => []

theorem unescape_cons {c : Char} (h : c ≠ '&') (s : List Char) :
    unescape (c :: s) = c :: unescape s := by
  rw [unescape.eq_def]
  split <;> simp_all

/-- What a character is escaped to is read back as the character, whatever follows. -/
theorem unescape_escapeChar (c : Char) (s : List Char) :
    unescape (escapeChar c ++ s) = c :: unescape s := by
  unfold escapeChar entity?
  split
  · next e he =>
    split at he <;> cases he <;> rfl
  · next he =>
    have hc : c ≠ '&' := by
      rintro rfl
      contradiction
    exact unescape_cons hc s

theorem unescape_escapeChars_append (s t : List Char) :
    unescape (escapeChars s ++ t) = s ++ unescape t := by
  induction s with
  | nil => rfl
  | cons c s ih =>
    rw [escapeChars, List.flatMap_cons, List.append_assoc, unescape_escapeChar, ← escapeChars, ih]
    rfl

theorem unescape_escapeChars (s : List Char) : unescape (escapeChars s) = s := by
  have h := unescape_escapeChars_append s []
  rwa [List.append_nil, unescape, List.append_nil] at h

example : unescape "&amp;lt;&lt;".toList = "&lt;<".toList := by decide

/-- An entity begins with `&` and holds no other character that has an entity. -/
theorem entity?_of_mem_entity {c d : Char} {e : String} (he : entity? d = some e)
    (h : c ∈ e.toList) : c = '&' ∨ entity? c = none := by
  have hall : e.toList.all (fun c => c == '&' || (entity? c).isNone) = true := by
    unfold entity? at he
    split at he <;> cases he <;> decide
  have hc := List.all_eq_true.mp hall c h
  rwa [Bool.or_eq_true, beq_iff_eq, Option.isNone_iff_eq_none] at hc

/-- No character with a meaning in HTML is left in escaped text but `&`. -/
theorem entity?_of_mem_escapeChars {c : Char} {s : List Char} (h : c ∈ escapeChars s) :
    c = '&' ∨ entity? c = none := by
  obtain ⟨d, -, hc⟩ := List.mem_flatMap.mp h
  unfold escapeChar at hc
  split at hc
  · next e he => exact entity?_of_mem_entity he hc
  · next he =>
    right
    rwa [List.mem_singleton.mp hc]

end LabelFleet.Canvas
