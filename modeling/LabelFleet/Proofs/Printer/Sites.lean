import LabelFleet.Printer.Site
import LabelFleet.Proofs.Joining

/-! Dials at a site. Those that are begun together are told apart by what was begun before each of
them, and it does not matter which of them ends first. -/
namespace LabelFleet.Printer.Site

/-- A dial that is begun now ends within so many milliseconds and without a failure. -/
def reaches (s : Site) (limit : Nat) (log : List Attempt) (a : Address) : Bool :=
  (s.dial log a).succeeds limit

variable (s : Site) (limit : Duration) (log : List Attempt)

theorem isOk_connect (a : Address) :
    (s.connect log a limit).value.isOk = s.reaches limit.millis log a :=
  Timed.isOk_within ..

theorem getElem?_connects (addresses : List Address) (i : Nat) :
    (s.connects limit log addresses)[i]? =
      addresses[i]?.map fun a => s.connect (log ++ (addresses.take i).map .dial) a limit := by
  induction addresses generalizing log i with
  | nil => rfl
  | cons a addresses ih =>
    cases i with
    | zero => simp [connects]
    | succ i => simp [connects, ih]

/-- Whatever the order in which the dials end, each answer is in the place of its own address. -/
theorem values_connects (addresses : List Address) :
    (Join.start (s.connects limit log addresses)).run.values =
      (s.connects limit log addresses).map Timed.value := by
  apply Join.values_run_start
  intro t ht
  obtain ⟨i, hi⟩ := List.mem_iff_getElem?.mp ht
  rw [getElem?_connects, Option.map_eq_some_iff] at hi
  obtain ⟨a, -, rfl⟩ := hi
  rfl

theorem bind_apply {σ α β : Type} (x : StateM σ α) (f : α → StateM σ β) (state : σ) :
    (x >>= f) state = f (x state).1 (x state).2 := rfl

theorem connect_link (a : Address) : (s.link.connect a limit) log =
    ((s.connect log a limit).value, log ++ [.dial a]) := by
  have hall : (s.link.connectAll [a] limit) log =
      ([(s.connect log a limit).value], log ++ [.dial a]) := by
    change ((Join.start (s.connects limit log [a])).run.values, _) = _
    rw [values_connects]
    rfl
  rw [Link.connect, bind_apply, hall]
  rfl

end LabelFleet.Printer.Site
