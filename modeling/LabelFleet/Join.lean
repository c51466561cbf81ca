import LabelFleet.Timed

/-! Waiting for several answers at once. All of them are asked for at the same moment; the clock
goes from one answer to the next until no further one comes. -/
namespace LabelFleet

/-- Where one of the answers is put. -/
inductive Place (α : Type)
  | waiting (answer : Timed α)
  | come (value : α)

structure Join (α : Type) where
  /-- For how long the answers have been waited for. -/
  clock : Nat
  /-- One place for each answer, in the order in which they were asked for. -/
  places : List (Place α)

variable {α : Type}

namespace Place

/-- When the answer comes, if it has not come yet and ever comes. -/
def due? : Place α → Option Nat
  | waiting t => t.delay
  | come _ => none

/-- The place when the clock shows `time`. -/
def pass (time : Nat) : Place α → Place α
  | waiting t => if t.inTime time then come t.value else waiting t
  | come a => come a

def value? : Place α → Option α
  | waiting _ => none
  | come a => some a

theorem due?_pass (time : Nat) (p : Place α) :
    (p.pass time).due? = p.due?.filter fun d => decide (time < d) := by
  cases p with
  | come a => rfl
  | waiting t =>
    rcases t with ⟨_ | d, a⟩
    · rfl
    · by_cases h : d ≤ time
      · simp [pass, due?, Timed.inTime, h, Option.filter_some]
      · simp [pass, due?, Timed.inTime, h, Option.filter_some, Nat.lt_of_not_le h]

end Place

namespace Join

def start (answers : List (Timed α)) : Join α := ⟨0, answers.map .waiting⟩

/-- When the answers come that are still to come. -/
def due (j : Join α) : List Nat := j.places.filterMap Place.due?

/-- When the next answer comes. -/
def next? (j : Join α) : Option Nat := j.due.min?

/-- Lets time pass until the clock shows `time`. -/
def pass (time : Nat) (j : Join α) : Join α := ⟨time, j.places.map (Place.pass time)⟩

theorem due_pass (time : Nat) (j : Join α) :
    (j.pass time).due = j.due.filter fun d => decide (time < d) := by
  rw [due, due, pass, List.filterMap_map, List.filter_filterMap]
  congr 1
  funext p
  exact p.due?_pass time

/-- When time has passed until the next answer, one answer less is still to come. -/
theorem length_due_lt_of_next {j : Join α} {time : Nat} (h : j.next? = some time) :
    (j.pass time).due.length < j.due.length := by
  rw [due_pass]
  obtain ⟨hmem, -⟩ := List.min?_eq_some_iff.mp h
  refine Nat.lt_of_le_of_ne (List.length_filter_le ..) ?_
  intro heq
  have hall := List.filter_eq_self.mp (List.filter_sublist.eq_of_length heq)
  have hlt := hall time hmem
  simp at hlt

/-- Waits from answer to answer until no further one comes. -/
def run (j : Join α) : Join α :=
  match _next : j.next? with
  | none => j
  | some time => (j.pass time).run
termination_by j.due.length
decreasing_by exact length_due_lt_of_next _next

/-- The answers that have come, in the order in which they were asked for. -/
def values (j : Join α) : List α := j.places.filterMap Place.value?

end Join

end LabelFleet
