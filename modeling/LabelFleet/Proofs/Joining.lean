import LabelFleet.Join
import Mathlib.Data.List.Basic

/-! Waiting for several answers at once takes as long as waiting for the last of them, and no answer
is lost or put in another's place on the way. -/
namespace LabelFleet

variable {α : Type}

theorem Timed.inTime_mono {t : Timed α} {a b : Nat} (hab : a ≤ b) (h : t.inTime a = true) :
    t.inTime b = true := by
  unfold inTime at h ⊢
  cases hd : t.delay with
  | none =>
    rw [hd] at h
    contradiction
  | some d =>
    rw [hd] at h
    have hda := of_decide_eq_true h
    exact decide_eq_true (by omega)

namespace Timed

variable {ε : Type}

/-- The answer comes within so many milliseconds and is not a failure. -/
def succeeds (limit : Nat) (t : Timed (Except ε α)) : Bool :=
  t.delay.any (· ≤ limit) && t.value.isOk

theorem succeeds_error (limit : Nat) (delay : Option Nat) (e : ε) :
    (⟨delay, .error e⟩ : Timed (Except ε α)).succeeds limit = false := Bool.and_false _

theorem succeeds_iff {limit : Nat} {t : Timed (Except ε α)} :
    t.succeeds limit = true ↔ ∃ d a, t = ⟨some d, .ok a⟩ ∧ d ≤ limit := by
  obtain ⟨delay, value⟩ := t
  constructor
  · intro h
    rw [succeeds, Bool.and_eq_true, Option.any_eq_true] at h
    obtain ⟨⟨d, rfl, hd⟩, hok⟩ := h
    cases value with
    | ok a => exact ⟨d, a, rfl, of_decide_eq_true hd⟩
    | error e => cases hok
  · rintro ⟨d, a, h, hd⟩
    rw [h, succeeds, Bool.and_eq_true]
    exact ⟨decide_eq_true hd, rfl⟩

theorem succeeds_eq (limit : Nat) (t : Timed (Except ε α)) :
    t.succeeds limit = (t.inTime limit && t.value.isOk) := by
  rw [succeeds, inTime_eq]

/-- An answer that is waited for, and is a failure when it is late, is as good as it is in time. -/
theorem isOk_within (limit : Nat) (late : ε) (t : Timed (Except ε α)) :
    (t.within limit (.error late)).value.isOk = t.succeeds limit := by
  rw [succeeds_eq, within]
  cases t.inTime limit <;> rfl

theorem succeeds_within (limit : Nat) (late : ε) (t : Timed (Except ε α)) :
    (t.within limit (.error late)).succeeds limit = t.succeeds limit := by
  rw [succeeds_eq, inTime_within, Bool.true_and, isOk_within]

/-- Telling of a failure in other words does not make it a success. -/
theorem succeeds_mapError {δ : Type} (limit : Nat) (f : ε → δ) (t : Timed (Except ε α)) :
    (t.map (·.mapError f)).succeeds limit = t.succeeds limit := by
  have hok : (t.value.mapError f).isOk = t.value.isOk := by
    cases t.value <;> rfl
  rw [succeeds, succeeds, ← hok]
  rfl

end Timed

/-- Time may pass in two steps as well as in one. -/
theorem Place.pass_pass {a b : Nat} (hab : a ≤ b) (p : Place α) : (p.pass a).pass b = p.pass b := by
  cases p with
  | come v => rfl
  | waiting t =>
    rw [pass]
    split
    · next h => rw [pass, pass, if_pos (Timed.inTime_mono hab h)]
    · rfl

/-- Once the last number is reached, none is left. -/
theorem filter_lt_of_max?_le {ns : List Nat} {time last : Nat} (h : ns.max? = some last)
    (hle : last ≤ time) : (ns.filter fun d => decide (time < d)) = [] := by
  obtain ⟨-, hmost⟩ := List.max?_eq_some_iff.mp h
  rw [List.filter_eq_nil_iff]
  intro d hd
  have hdlast := hmost d hd
  rw [decide_eq_true_iff]
  omega

/-- Before the last number is reached, it is left. -/
theorem max?_filter_lt {ns : List Nat} {time last : Nat} (h : ns.max? = some last)
    (hlt : time < last) : (ns.filter fun d => decide (time < d)).max? = some last := by
  obtain ⟨hmem, hmost⟩ := List.max?_eq_some_iff.mp h
  rw [List.max?_eq_some_iff]
  constructor
  · exact List.mem_filter.mpr ⟨hmem, decide_eq_true hlt⟩
  · intro d hd
    exact hmost d (List.mem_filter.mp hd).1

namespace Join

theorem pass_pass {a b : Nat} (hab : a ≤ b) (j : Join α) : (j.pass a).pass b = j.pass b := by
  rw [pass, pass, pass, List.map_map]
  congr 1
  apply List.map_congr_left
  intro p _
  exact p.pass_pass hab

/-- Going from answer to answer leads to the moment of the last one. -/
theorem run_eq (j : Join α) : j.run = (j.due.max?.map fun last => j.pass last).getD j := by
  fun_induction run j with
  | case1 j hnext =>
    have hdue : j.due = [] := List.min?_eq_none_iff.mp hnext
    rw [hdue]
    rfl
  | case2 j time hnext ih =>
    obtain ⟨hmem, hleast⟩ := List.min?_eq_some_iff.mp hnext
    obtain ⟨last, hlast⟩ : ∃ last, j.due.max? = some last := by
      cases h : j.due.max? with
      | none =>
        rw [List.max?_eq_none_iff.mp h] at hmem
        contradiction
      | some last => exact ⟨last, rfl⟩
    rw [ih, hlast, due_pass]
    by_cases hover : last ≤ time
    · obtain ⟨hlastmem, -⟩ := List.max?_eq_some_iff.mp hlast
      have hsame : last = time := Nat.le_antisymm hover (hleast last hlastmem)
      rw [filter_lt_of_max?_le hlast hover, hsame]
      rfl
    · rw [max?_filter_lt hlast (by omega)]
      change (j.pass time).pass last = j.pass last
      exact pass_pass (by omega) j

theorem due_start (answers : List (Timed α)) :
    (start answers).due = answers.filterMap Timed.delay := by
  rw [due, start, List.filterMap_map]
  rfl

/-- Where every answer comes, the last one ends the wait. -/
theorem clock_run_start (answers : List (Timed α)) :
    (start answers).run.clock = (answers.filterMap Timed.delay).max?.getD 0 := by
  rw [run_eq, due_start]
  cases (answers.filterMap Timed.delay).max? with
  | none => rfl
  | some last => rfl

/-- Where every answer comes, each is found in its own place in the end. -/
theorem values_run_start {answers : List (Timed α)} (h : ∀ t ∈ answers, t.delay.isSome = true) :
    (start answers).run.values = answers.map Timed.value := by
  rw [run_eq, due_start]
  cases hlast : (answers.filterMap Timed.delay).max? with
  | none =>
    rw [List.max?_eq_none_iff, List.filterMap_eq_nil_iff] at hlast
    cases answers with
    | nil => rfl
    | cons t answers =>
      have hsome := h t List.mem_cons_self
      rw [hlast t List.mem_cons_self] at hsome
      contradiction
  | some last =>
    obtain ⟨-, hmost⟩ := List.max?_eq_some_iff.mp hlast
    change ((start answers).pass last).values = _
    rw [values, pass, start, List.map_map, List.filterMap_map]
    have hcome : ∀ t ∈ answers, ((Place.waiting t).pass last).value? = some t.value := by
      intro t ht
      obtain ⟨d, hd⟩ := Option.isSome_iff_exists.mp (h t ht)
      have hle := hmost d (List.mem_filterMap.mpr ⟨t, ht, hd⟩)
      have htime : t.inTime last = true := by
        rw [Timed.inTime, hd]
        exact decide_eq_true hle
      rw [Place.pass, if_pos htime]
      rfl
    calc
      _ = answers.filterMap (some ∘ Timed.value) := List.filterMap_congr hcome
      _ = answers.map Timed.value := by rw [List.filterMap_eq_map]

end Join

end LabelFleet
