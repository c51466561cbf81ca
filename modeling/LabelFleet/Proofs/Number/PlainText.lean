import LabelFleet.Number.Style

/-! The characters of a number in running text. -/
namespace LabelFleet.Style

/-- A digit or the decimal point. -/
def Positional (c : Char) : Prop := c.isDigit = true ∨ c = '.'

/-- A character of a number: of its digits, its sign, `inf` or `NaN`. -/
def Plain (c : Char) : Prop := Positional c ∨ c = '-' ∨ c ∈ "inf".toList ∨ c ∈ "NaN".toList

theorem positional_of_mem_positionalText {pointKept : Bool} {ds : List Char} {e : Int}
    (hds : ∀ d ∈ ds, d.isDigit = true) {c : Char} (h : c ∈ positionalText pointKept ds e) :
    Positional c := by
  have zero : ∀ {n : Nat}, c ∈ List.replicate n '0' → c.isDigit = true := by
    intro n hc
    rw [(List.mem_replicate.mp hc).2]
    rfl
  unfold positionalText at h
  split at h
  · rw [List.mem_append, List.mem_append] at h
    rcases h with (h | h) | h
    · exact Or.inl (hds c h)
    · exact Or.inl (zero h)
    · cases pointKept with
      | false => contradiction
      | true =>
        rcases List.mem_cons.mp h with h | h
        · exact Or.inr h
        · exact Or.inl (List.mem_singleton.mp h ▸ rfl)
  · dsimp only at h
    split at h
    · rw [List.mem_append, List.mem_cons] at h
      rcases h with h | h | h
      · exact Or.inl (hds c (List.mem_of_mem_take h))
      · exact Or.inr h
      · exact Or.inl (hds c (List.mem_of_mem_drop h))
    · rw [List.mem_cons, List.mem_cons, List.mem_append] at h
      rcases h with h | h | h | h
      · exact Or.inl (h ▸ rfl)
      · exact Or.inr h
      · exact Or.inl (zero h)
      · exact Or.inl (hds c h)

theorem positional_of_mem_positiveText {x : Float} {c : Char} (h : c ∈ plain.positiveText x) :
    Positional c := by
  unfold positiveText at h
  exact positional_of_mem_positionalText (fun d hd => Digits.isDigit_of_mem_ofNat hd) h

/-- A number in running text consists of digits, a point and a sign, or is `inf` or `NaN`. -/
theorem plain_of_mem_text {x : Float} {c : Char} (h : c ∈ plain.text x) : Plain c := by
  have body : ∀ {y : Float}, (c ∈ if Binary64.significand x = 0 then
      positionalText plain.pointKept ['0'] 0 else plain.positiveText y) → Positional c := by
    intro y hc
    split at hc
    · exact positional_of_mem_positionalText (by simp) hc
    · exact positional_of_mem_positiveText hc
  unfold text at h
  split at h
  · exact Or.inr (Or.inr (Or.inr h))
  · split at h
    · split at h
      · rcases List.mem_cons.mp h with h | h
        · exact Or.inr (Or.inl h)
        · exact Or.inr (Or.inr (Or.inl h))
      · exact Or.inr (Or.inr (Or.inl h))
    · dsimp only at h
      split at h
      · rcases List.mem_cons.mp h with h | h
        · exact Or.inr (Or.inl h)
        · exact Or.inl (body h)
      · exact Or.inl (body h)

end LabelFleet.Style
