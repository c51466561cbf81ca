import LabelFleet.Json.Reader
import Mathlib.Data.Nat.Notation
import Mathlib.Tactic.SplitIfs

/-! Which texts are read as a string: those in which a quote stands behind the blanks. -/
namespace LabelFleet.Json

theorem bind_eq_ok_iff {ε α β : Type} {x : Except ε α} {f : α → Except ε β} {b : β} :
    x >>= f = .ok b ↔ ∃ a, x = .ok a ∧ f a = .ok b := by
  cases x with
  | error e => simp [bind, Except.bind]
  | ok a => simp [bind, Except.bind]

theorem integer_ne_string (negative : Bool) (n : ℕ) (t : String) :
    integer negative n ≠ .string t := by
  rw [integer]
  split_ifs <;> simp [signed]

variable {s rest : List Char} {t : String}

theorem readNumber_ne_string (negative : Bool) : readNumber negative s ≠ .ok (.string t, rest) := by
  intro h
  rw [readNumber] at h
  obtain ⟨⟨whole, s₁⟩, -, h⟩ := bind_eq_ok_iff.mp h
  obtain ⟨⟨fraction, s₂⟩, -, h⟩ := bind_eq_ok_iff.mp h
  obtain ⟨⟨power, s₃⟩, -, h⟩ := bind_eq_ok_iff.mp h
  simp only at h
  split_ifs at h
  · exact integer_ne_string _ _ _ (Prod.mk.inj (Except.ok.inj h)).1
  · obtain ⟨x, -, h⟩ := bind_eq_ok_iff.mp h
    have hdouble := (Prod.mk.inj (Except.ok.inj h)).1
    rw [signed] at hdouble
    contradiction

theorem readValue_eq_string_iff {depth fuel : ℕ} :
    readValue depth (fuel + 1) s = .ok (.string t, rest) ↔
      ∃ s', skipSpace s = '"' :: s' ∧ readString s' = .ok (t, rest) := by
  rw [readValue]
  split
  case h_6 s' heq =>
    rw [bind_eq_ok_iff]
    constructor
    · rintro ⟨⟨t', rest'⟩, hread, h⟩
      cases h
      exact ⟨s', heq, hread⟩
    · rintro ⟨s'', hquote, hread⟩
      cases heq.symm.trans hquote
      exact ⟨_, hread, rfl⟩
  case h_9 c s' _ _ _ _ hquote _ _ heq =>
    rw [heq]
    constructor
    · intro h
      split_ifs at h
      exact absurd h (readNumber_ne_string false)
    · rintro ⟨_, ⟨⟩, -⟩
      exact absurd rfl hquote
  case h_7 | h_8 =>
    next heq =>
    split_ifs <;> simp [heq, bind_eq_ok_iff, pure, Except.pure]
  all_goals
    next heq =>
    simp [heq, bind_eq_ok_iff, pure, Except.pure, readNumber_ne_string]

end LabelFleet.Json
