/-! Answers that take time. Time is counted in milliseconds and passes only while something is
waited for; a wait that ends exactly at its limit still counts as answered. -/
namespace LabelFleet

/-- An answer and when it comes; it never comes if there is no such time. -/
structure Timed (α : Type) where
  delay : Option Nat
  value : α

namespace Timed

variable {α β : Type}

def now (a : α) : Timed α := ⟨some 0, a⟩

def map (f : α → β) (t : Timed α) : Timed β := ⟨t.delay, f t.value⟩

def inTime (limit : Nat) (t : Timed α) : Bool :=
  match t.delay with
  | some d => decide (d ≤ limit)
  | none => false

def waited (limit : Nat) (t : Timed α) : Nat :=
  match t.delay with
  | some d => min d limit
  | none => limit

/-- Waits up to the limit and then makes do with `late`. -/
def within (limit : Nat) (late : α) (t : Timed α) : Timed α :=
  ⟨some (t.waited limit), if t.inTime limit then t.value else late⟩

/-- The answer with the time after which it comes. -/
def stamped (t : Timed α) : Timed (Nat × α) := ⟨t.delay, (t.delay.getD 0, t.value)⟩

theorem inTime_eq (limit : Nat) (t : Timed α) : t.inTime limit = t.delay.any (· ≤ limit) := by
  rw [inTime]
  cases t.delay <;> rfl

theorem waited_eq (limit : Nat) (t : Timed α) :
    t.waited limit = t.delay.elim limit (min · limit) := by
  rw [waited]
  cases t.delay <;> rfl

theorem waited_le (limit : Nat) (t : Timed α) : t.waited limit ≤ limit := by
  unfold waited
  split
  · exact Nat.min_le_right ..
  · exact Nat.le_refl _

@[simp] theorem inTime_within (limit : Nat) (late : α) (t : Timed α) :
    (t.within limit late).inTime limit = true := by
  simp [inTime, within, waited_le]

@[simp] theorem waited_within (limit : Nat) (late : α) (t : Timed α) :
    (t.within limit late).waited limit = t.waited limit :=
  Nat.min_eq_left (t.waited_le limit)

/-- Keeping to the same limit twice changes nothing. -/
@[simp] theorem within_within (limit : Nat) (late : α) (t : Timed α) :
    (t.within limit late).within limit late = t.within limit late := by
  rw [within, waited_within, inTime_within, if_pos rfl]
  rfl

end Timed

end LabelFleet
