import LabelFleet.Printer.Emulator

/-! Emulated printers and the handles on them. A clone of a handle reaches the same printer, so what
is done through one of them shows through all of them. -/
namespace LabelFleet.Printer

/-- Printers and handles are numbered in the order in which they come. -/
structure Bench where
  printers : List Emulator := []
  /-- The number of the printer that each handle reaches. -/
  handles : List Nat := []
  inRange : ∀ i ∈ handles, i < printers.length := by simp

namespace Bench

inductive Act
  | start (name model : String)
  | clone (handle : Nat)
  | operate (handle : Nat) (operation : Emulator.Operation)
deriving DecidableEq, Repr

def printer? (b : Bench) (handle : Nat) : Option Emulator := do b.printers[← b.handles[handle]?]?

/-- A new printer, with a first handle on it. -/
def start (b : Bench) (name model : String) : Bench where
  printers := b.printers ++ [{ name, model }]
  handles := b.handles ++ [b.printers.length]
  inRange i hi := by
    rw [List.length_append, List.length_singleton]
    rcases List.mem_append.mp hi with h | h
    · exact Nat.lt_succ_of_lt (b.inRange i h)
    · exact List.mem_singleton.mp h ▸ Nat.lt_succ_self _

/-- One more handle on the printer that a handle reaches. A handle that has not been made does
nothing. -/
def clone (b : Bench) (handle : Nat) : Bench :=
  match h : b.handles[handle]? with
  | some i =>
    { printers := b.printers
      handles := b.handles ++ [i]
      inRange := fun j hj => by
        rcases List.mem_append.mp hj with hmem | hmem
        · exact b.inRange j hmem
        · exact List.mem_singleton.mp hmem ▸ b.inRange i (List.mem_of_getElem? h) }
  | none => b

def operateOn (b : Bench) (i : Nat) (operation : Emulator.Operation) : Bench where
  printers := b.printers.modify i (·.step operation)
  handles := b.handles
  inRange j hj := by
    rw [List.length_modify]
    exact b.inRange j hj

/-- Operates the printer that a handle reaches, and brings its answer. -/
def operate (b : Bench) (handle : Nat) (operation : Emulator.Operation) :
    Bench × Option String :=
  match b.handles[handle]? with
  | some i => (b.operateOn i operation, b.printers[i]?.bind fun e => (e.perform operation).2)
  | none => (b, none)

/-- The bench after an act, and the answer to it. -/
def perform (b : Bench) : Act → Bench × Option String
  | .start name model => (b.start name model, none)
  | .clone handle => (b.clone handle, none)
  | .operate handle operation => b.operate handle operation

def run (b : Bench) (acts : List Act) : Bench := acts.foldl (fun b a => (b.perform a).1) b

end Bench

end LabelFleet.Printer
