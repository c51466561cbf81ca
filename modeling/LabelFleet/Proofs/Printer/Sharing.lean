import LabelFleet.Printer.Bench
import LabelFleet.Proofs.Printer.History

/-! What is seen of an emulated printer through its handles. Everything done through one of them
belongs to the history of the printer, and through each of them the printer is found as that history
tells. -/
namespace LabelFleet.Printer.Bench

open Emulator (Operation sinceReset completed Unfinished Follows)

/-- The operation that an act is for the printer with the given number. -/
def operation? (b : Bench) (i : Nat) : Act → Option Operation
  | .operate handle operation => if b.handles[handle]? = some i then some operation else none
  | _ => none

/-- All that is done to the printer with the given number, through whichever handles. -/
def history (b : Bench) (i : Nat) : List Act → List Operation
  | [] => []
  | a :: acts => (b.operation? i a).toList ++ (b.perform a).1.history i acts

/-! ### One act -/

/-- A clone of a handle is a new handle on the same printer, and nothing else changes. -/
theorem clone_of_getElem? {b : Bench} {handle i : Nat} (h : b.handles[handle]? = some i) :
    (b.clone handle).handles = b.handles ++ [i] ∧ (b.clone handle).printers = b.printers := by
  rw [clone]
  split
  · next j hj =>
    obtain rfl : j = i := Option.some.inj (hj.symm.trans h)
    exact ⟨rfl, rfl⟩
  · next hnone =>
    rw [hnone] at h
    cases h

/-- A handle reaches the same printer forever. -/
theorem getElem?_handles_perform {b : Bench} {handle i : Nat} (h : b.handles[handle]? = some i)
    (a : Act) : (b.perform a).1.handles[handle]? = some i := by
  obtain ⟨hlt, -⟩ := List.getElem?_eq_some_iff.mp h
  cases a with
  | start name model => exact (List.getElem?_append_left hlt).trans h
  | clone other =>
    rw [perform, clone]
    split
    · exact (List.getElem?_append_left hlt).trans h
    · exact h
  | operate other operation =>
    rw [perform, operate]
    split
    · exact h
    · exact h

/-- An act changes a printer as its operation does, if it is one for that printer, and else not at
all. -/
theorem getElem?_printers_perform {b : Bench} {i : Nat} {e : Emulator}
    (h : b.printers[i]? = some e) (a : Act) :
    (b.perform a).1.printers[i]? = some (e.run (b.operation? i a).toList) := by
  obtain ⟨hlt, -⟩ := List.getElem?_eq_some_iff.mp h
  cases a with
  | start name model => exact (List.getElem?_append_left hlt).trans h
  | clone handle =>
    rw [perform, clone]
    split
    · exact h
    · exact h
  | operate handle operation =>
    rw [perform, operate, operation?]
    cases b.handles[handle]? with
    | none => exact h
    | some j =>
      change (b.printers.modify j (·.step operation))[i]? = _
      rw [List.getElem?_modify, h]
      by_cases hij : j = i
      · simp [hij, Emulator.run]
      · simp [hij, Emulator.run]

/-- The answer to an operation is that of the printer which the handle reaches. -/
theorem answer_operate {b : Bench} {handle i : Nat} {e : Emulator}
    (hhandle : b.handles[handle]? = some i) (h : b.printers[i]? = some e) (operation : Operation) :
    (b.perform (.operate handle operation)).2 = (e.perform operation).2 := by
  rw [perform, operate, hhandle]
  change (b.printers[i]?.bind fun e => (e.perform operation).2) = _
  rw [h]
  rfl

/-! ### Runs -/

theorem run_append (b : Bench) (earlier later : List Act) :
    b.run (earlier ++ later) = (b.run earlier).run later :=
  List.foldl_append ..

theorem getElem?_handles_run {b : Bench} {handle i : Nat} (h : b.handles[handle]? = some i)
    (acts : List Act) : (b.run acts).handles[handle]? = some i := by
  induction acts generalizing b with
  | nil => exact h
  | cons a acts ih => exact ih (getElem?_handles_perform h a)

theorem getElem?_printers_run {b : Bench} {i : Nat} {e : Emulator} (h : b.printers[i]? = some e)
    (acts : List Act) : (b.run acts).printers[i]? = some (e.run (b.history i acts)) := by
  induction acts generalizing b e with
  | nil => exact h
  | cons a acts ih =>
    have hrun : e.run (b.history i (a :: acts)) =
        (e.run (b.operation? i a).toList).run ((b.perform a).1.history i acts) :=
      List.foldl_append ..
    rw [hrun]
    exact ih (getElem?_printers_perform h a)

theorem history_append (b : Bench) (i : Nat) (earlier later : List Act) :
    b.history i (earlier ++ later) =
      b.history i earlier ++ (b.run earlier).history i later := by
  induction earlier generalizing b with
  | nil => rfl
  | cons a earlier ih =>
    rw [List.cons_append, history, history, ih, List.append_assoc]
    rfl

/-- The chunk is answered as the chunks since the last reset tell: a label that is finished is
counted, one that only starts is not answered, and any other chunk leaves the printer as it is. -/
structure Answered (chunks : List String) (chunk : String) (reply : Option String)
    (before after : Emulator) : Prop where
  completing : Completes chunk →
    reply = some s!"JOB COMPLETED: {Digits.text (completed chunks + 1)}\n"
  silent : reply = none ↔ Opens chunk
  steady : ¬ Opens chunk → ¬ Completes chunk →
    after.state = before.state ∧ after.jobs = before.jobs

theorem answered_respond {name model : String} {history : List Operation} {e : Emulator}
    {chunk : String} (h : Follows name model history e)
    (hfew : completed ((history ++ [Operation.send chunk]).filterMap Operation.chunk?) <
      Nat.pow 2 64) :
    Answered (sinceReset history) chunk (e.respond chunk).2 e (e.respond chunk).1 where
  completing hcompletes := by
    have hnext := (h.step (.send chunk)).jobs_toNat hfew
    rw [Emulator.sinceReset_send, Emulator.completed_concat, if_pos hcompletes] at hnext
    have hjobs : (e.step (.send chunk)).jobs = e.jobs + 1 :=
      (e.jobs_respond chunk).trans (if_pos hcompletes)
    rw [e.reply_respond_of_completes hcompletes, ← hjobs, hnext]
    rfl
  silent := e.reply_respond_eq_none_iff
  steady hopens hcompletes := by
    rw [e.state_respond, e.jobs_respond, if_neg hopens, if_neg hcompletes, if_neg hcompletes]
    exact ⟨rfl, rfl⟩

/-- Whatever is done on a bench to which a printer is added, through whichever handles: a clone of a
handle on the printer is one more handle on it, through each handle that reaches the printer it is
found as its own history tells, and every chunk sent to it is answered as the chunks before it tell,
as long as fewer labels are finished than 64 bits can count. -/
theorem run_start (b : Bench) (name model : String) (acts : List Act)
    (hfew : completed (((b.start name model).history b.printers.length acts).filterMap
      Operation.chunk?) < Nat.pow 2 64) :
    let started := b.start name model
    let i := b.printers.length
    let history := started.history i acts
    (started.run acts).handles[b.handles.length]? = some i ∧
      (∀ earlier handle later, acts = earlier ++ .clone handle :: later →
        (started.run earlier).handles[handle]? = some i →
        ((started.run earlier).clone handle).handles = (started.run earlier).handles ++ [i] ∧
          ((started.run earlier).clone handle).printers = (started.run earlier).printers ∧
          (started.run acts).handles[(started.run earlier).handles.length]? = some i) ∧
      (∀ handle, (started.run acts).handles[handle]? = some i →
        ∃ e, (started.run acts).printer? handle = some e ∧ Follows name model history e ∧
          e.jobs.toNat = completed (sinceReset history) ∧
          (e.state = .ready ↔ ¬ Unfinished (sinceReset history))) ∧
      ∀ earlier handle chunk later, acts = earlier ++ .operate handle (.send chunk) :: later →
        (started.run earlier).handles[handle]? = some i →
        ∃ before after,
          (started.run earlier).printers[i]? = some before ∧
          ((started.run earlier).operate handle (.send chunk)).1.printers[i]? = some after ∧
          Answered (sinceReset (started.history i earlier)) chunk
            ((started.run earlier).operate handle (.send chunk)).2 before after := by
  intro started i history
  have hprinter : started.printers[i]? = some { name, model } := List.getElem?_concat_length
  have hhandle : started.handles[b.handles.length]? = some i := List.getElem?_concat_length
  refine ⟨getElem?_handles_run hhandle acts, ?_, ?_, ?_⟩
  · rintro earlier handle later rfl hreaches
    obtain ⟨hhandles, hprinters⟩ := clone_of_getElem? hreaches
    refine ⟨hhandles, hprinters, ?_⟩
    have hnew : ((started.run earlier).clone handle).handles[
        (started.run earlier).handles.length]? = some i := by
      rw [hhandles]
      exact List.getElem?_concat_length
    rw [run_append]
    exact getElem?_handles_run hnew later
  · intro handle hreaches
    have hfollows := Emulator.follows_run name model history
    refine ⟨({ name, model } : Emulator).run history, ?_, hfollows, hfollows.jobs_toNat hfew, ?_⟩
    · rw [printer?, hreaches]
      exact getElem?_printers_run hprinter acts
    · rw [← hfollows.printing_iff]
      cases (({ name, model } : Emulator).run history).state <;> simp
  · rintro earlier handle chunk later rfl hreaches
    have hbefore := getElem?_printers_run hprinter earlier
    have hafter := getElem?_printers_perform hbefore (.operate handle (.send chunk))
    have hoperation : (started.run earlier).operation? i (.operate handle (.send chunk)) =
        some (.send chunk) := if_pos hreaches
    rw [hoperation] at hafter
    refine ⟨_, _, hbefore, hafter, ?_⟩
    -- The history up to the chunk begins the whole one, so its labels can be counted as well.
    have hstart : started.history i earlier ++ [Operation.send chunk] <+:
        started.history i (earlier ++ .operate handle (.send chunk) :: later) := by
      rw [history_append, Bench.history, hoperation]
      exact ⟨_, List.append_assoc ..⟩
    have hfewer : completed
        ((started.history i earlier ++ [Operation.send chunk]).filterMap Operation.chunk?) <
          Nat.pow 2 64 :=
      Nat.lt_of_le_of_lt (hstart.sublist.filterMap _).countP_le hfew
    change Answered _ chunk ((started.run earlier).perform (.operate handle (.send chunk))).2 _ _
    rw [answer_operate hreaches hbefore]
    exact answered_respond (Emulator.follows_run ..) hfewer

/-- A bench without printers. -/
def empty : Bench := {}

/-- A label that starts through the clone ends through the first handle, and is counted once. -/
theorem run_start_clone :
    let acts : List Act := [.clone 0, .operate 1 (.send "^XA"), .operate 0 (.send "^XZ")]
    let started := empty.start "ZEBRA-001" "ZT230"
    completed ((started.history 0 acts).filterMap Operation.chunk?) < Nat.pow 2 64 ∧
      ∃ e, (started.run acts).printer? 1 = some e ∧
        Follows "ZEBRA-001" "ZT230" [.send "^XA", .send "^XZ"] e ∧ e.jobs.toNat = 1 := by
  intro acts started
  have hfew : completed ((started.history 0 acts).filterMap Operation.chunk?) < Nat.pow 2 64 := by
    decide
  obtain ⟨-, -, hread, -⟩ := run_start empty "ZEBRA-001" "ZT230" acts hfew
  obtain ⟨e, hprinter, hfollows, hjobs, -⟩ := hread 1 rfl
  exact ⟨hfew, e, hprinter, hfollows, hjobs⟩

end LabelFleet.Printer.Bench
