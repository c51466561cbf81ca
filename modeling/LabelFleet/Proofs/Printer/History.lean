import LabelFleet.Printer.Emulator
import LabelFleet.Proofs.Text.Searching
import Mathlib.Data.List.DropRight

/-! An emulated printer, told from its history alone: how many labels it has finished, whether one
has started, and what it was sent last. -/
namespace LabelFleet.Printer

/-! ### Kinds of chunks -/

/-- A label starts and does not end. -/
def Opens (chunk : String) : Prop :=
  "^XA".toList <+: chunk.toList ∧ ¬ "^XZ".toList <:+: chunk.toList

/-- A label ends: one that has started before, or one that starts in the chunk itself. -/
def Completes (chunk : String) : Prop :=
  "^XZ".toList <+: chunk.toList ∨ "^XA".toList <+: chunk.toList ∧ "^XZ".toList <:+: chunk.toList

instance : DecidablePred Opens := fun _ => inferInstanceAs (Decidable (_ ∧ _))

instance : DecidablePred Completes := fun _ => inferInstanceAs (Decidable (_ ∨ _))

/-- Two beginnings of one text are equal if they are equally long. -/
theorem not_prefix_of_ne {a b s : List Char} (hlength : a.length = b.length) (hne : a ≠ b)
    (h : a <+: s) : ¬ b <+: s := by
  intro hb
  exact hne ((List.prefix_of_prefix_length_le h hb hlength.le).eq_of_length hlength)

theorem Opens.not_completes {chunk : String} (h : Opens chunk) : ¬ Completes chunk := by
  rintro (hstart | ⟨-, hend⟩)
  · exact not_prefix_of_ne (by decide) (by decide) h.1 hstart
  · exact h.2 hend

namespace Request

theorem ofChunk_eq_opening_iff {chunk : String} :
    ofChunk chunk.toList = .opening ↔ Opens chunk := by
  unfold ofChunk Opens
  simp only [Text.begins_iff, Text.occurs_iff]
  split_ifs with hstart hend
  · exact iff_of_false (by decide) fun h => h.2 hend
  · exact iff_of_true rfl ⟨hstart, hend⟩
  all_goals exact iff_of_false (by decide) fun h => hstart h.1

theorem ofChunk_eq_completing_iff {chunk : String} :
    ofChunk chunk.toList = .completing ↔ Completes chunk := by
  unfold ofChunk Completes
  simp only [Text.begins_iff, Text.occurs_iff]
  split_ifs with hstart hend hlone
  · exact iff_of_true rfl (.inr ⟨hstart, hend⟩)
  · refine iff_of_false (by decide) ?_
    rintro (h | h)
    · exact hend h.isInfix
    · exact hend h.2
  · exact iff_of_true rfl (.inl hlone)
  all_goals
    refine iff_of_false (by decide) ?_
    rintro (h | h)
    · exact hlone h
    · exact hstart h.1

end Request

namespace Emulator

/-! ### What a chunk does -/

@[simp] theorem name_perform (e : Emulator) (operation : Operation) :
    (e.perform operation).1.name = e.name := by
  cases operation with
  | reset => rfl
  | send chunk =>
    change (e.apply (Request.ofChunk chunk.toList)).name = e.name
    cases Request.ofChunk chunk.toList <;> rfl

@[simp] theorem model_perform (e : Emulator) (operation : Operation) :
    (e.perform operation).1.model = e.model := by
  cases operation with
  | reset => rfl
  | send chunk =>
    change (e.apply (Request.ofChunk chunk.toList)).model = e.model
    cases Request.ofChunk chunk.toList <;> rfl

theorem state_respond (e : Emulator) (chunk : String) : (e.respond chunk).1.state =
    if Opens chunk then .printing else if Completes chunk then .ready else e.state := by
  simp only [← Request.ofChunk_eq_opening_iff, ← Request.ofChunk_eq_completing_iff]
  change (e.apply (Request.ofChunk chunk.toList)).state = _
  cases Request.ofChunk chunk.toList <;> rfl

theorem jobs_respond (e : Emulator) (chunk : String) : (e.respond chunk).1.jobs =
    if Completes chunk then e.jobs + 1 else e.jobs := by
  simp only [← Request.ofChunk_eq_completing_iff]
  change (e.apply (Request.ofChunk chunk.toList)).jobs = _
  cases Request.ofChunk chunk.toList <;> rfl

theorem reply_respond_of_completes (e : Emulator) {chunk : String} (h : Completes chunk) :
    (e.respond chunk).2 = some (completedLine (e.jobs + 1).toNat) := by
  change e.reply (Request.ofChunk chunk.toList) = _
  rw [Request.ofChunk_eq_completing_iff.mpr h]
  rfl

theorem reply_respond_eq_none_iff (e : Emulator) {chunk : String} :
    (e.respond chunk).2 = none ↔ Opens chunk := by
  rw [← Request.ofChunk_eq_opening_iff]
  change e.reply (Request.ofChunk chunk.toList) = none ↔ _
  cases Request.ofChunk chunk.toList <;> simp [reply]

/-! ### Histories -/

/-- The chunk of an operation that sends one. -/
def Operation.chunk? : Operation → Option String
  | .send chunk => some chunk
  | .reset => none

/-- The chunks sent since the last reset, or from the start if there was none. -/
def sinceReset (history : List Operation) : List String :=
  (history.rtakeWhile (· ≠ .reset)).filterMap Operation.chunk?

/-- How many labels the chunks have finished. -/
def completed (chunks : List String) : Nat := chunks.countP (Completes ·)

/-- A label has started, and none has been finished since. -/
def Unfinished (chunks : List String) : Prop :=
  ∃ earlier chunk later, chunks = earlier ++ chunk :: later ∧ Opens chunk ∧
    ∀ c ∈ later, ¬ Completes c

@[simp] theorem sinceReset_reset (history : List Operation) :
    sinceReset (history ++ [.reset]) = [] := by
  rw [sinceReset, List.rtakeWhile_concat_neg _ _ _ (by simp)]
  rfl

@[simp] theorem sinceReset_send (history : List Operation) (chunk : String) :
    sinceReset (history ++ [.send chunk]) = sinceReset history ++ [chunk] := by
  rw [sinceReset, List.rtakeWhile_concat_pos _ _ _ (by simp), List.filterMap_append]
  rfl

@[simp] theorem completed_concat (chunks : List String) (chunk : String) :
    completed (chunks ++ [chunk]) = completed chunks + if Completes chunk then 1 else 0 := by
  simp [completed, List.countP_append, List.countP_singleton]

theorem not_unfinished_nil : ¬ Unfinished [] := by
  rintro ⟨earlier, chunk, later, h, -⟩
  simp at h

theorem unfinished_concat {chunks : List String} {chunk : String} :
    Unfinished (chunks ++ [chunk]) ↔ Opens chunk ∨ ¬ Completes chunk ∧ Unfinished chunks := by
  constructor
  · rintro ⟨earlier, opening, later, heq, hopens, hlater⟩
    rcases List.eq_nil_or_concat later with rfl | ⟨middle, last, rfl⟩
    · obtain ⟨-, hlast⟩ := List.append_inj' heq rfl
      exact .inl (List.singleton_inj.mp hlast ▸ hopens)
    · have heq' : chunks ++ [chunk] = (earlier ++ opening :: middle) ++ [last] := by
        rw [heq, List.append_assoc, List.cons_append, List.concat_eq_append]
      obtain ⟨hchunks, hlast⟩ := List.append_inj' heq' rfl
      rw [List.concat_eq_append] at hlater
      right
      constructor
      · rw [List.singleton_inj.mp hlast]
        exact hlater last (List.mem_append_right _ List.mem_cons_self)
      · exact ⟨earlier, opening, middle, hchunks, hopens,
          fun c hc => hlater c (List.mem_append_left _ hc)⟩
  · rintro (hopens | ⟨hcompletes, earlier, opening, later, rfl, hopens, hlater⟩)
    · exact ⟨chunks, chunk, [], rfl, hopens, by simp⟩
    · refine ⟨earlier, opening, later ++ [chunk], ?_, hopens, ?_⟩
      · rw [List.append_assoc, List.cons_append]
      · intro c hc
        rcases List.mem_append.mp hc with hc | hc
        · exact hlater c hc
        · exact List.mem_singleton.mp hc ▸ hcompletes

/-! ### Runs -/

/-- The state of a printer as its history tells it. The count of labels is kept in 64 bits. -/
structure Follows (name model : String) (history : List Operation) (e : Emulator) : Prop where
  name_eq : e.name = name
  model_eq : e.model = model
  jobs_eq : e.jobs = UInt64.ofNat (completed (sinceReset history))
  printing_iff : e.state = .printing ↔ Unfinished (sinceReset history)
  lastCommand_eq : e.lastCommand = (history.filterMap Operation.chunk?).getLast?

theorem follows_new (name model : String) : Follows name model [] { name, model } where
  name_eq := rfl
  model_eq := rfl
  jobs_eq := rfl
  printing_iff := iff_of_false State.noConfusion not_unfinished_nil
  lastCommand_eq := rfl

/-- One more operation takes the printer to what the longer history tells. -/
theorem Follows.step {name model : String} {history : List Operation} {e : Emulator}
    (h : Follows name model history e) (operation : Operation) :
    Follows name model (history ++ [operation]) (e.step operation) := by
  cases operation with
  | reset =>
    refine ⟨h.name_eq, h.model_eq, ?_, ?_, ?_⟩
    · rw [sinceReset_reset]
      rfl
    · rw [sinceReset_reset]
      exact iff_of_false State.noConfusion not_unfinished_nil
    · rw [List.filterMap_append]
      exact h.lastCommand_eq.trans (by simp [Operation.chunk?])
  | send chunk =>
    have hstep : e.step (.send chunk) = (e.respond chunk).1 := rfl
    refine ⟨?_, ?_, ?_, ?_, ?_⟩
    · exact (e.name_perform _).trans h.name_eq
    · exact (e.model_perform _).trans h.model_eq
    · rw [hstep, jobs_respond, sinceReset_send, completed_concat, h.jobs_eq]
      split
      · exact (UInt64.ofNat_add _ 1).symm
      · rfl
    · rw [hstep, state_respond, sinceReset_send, unfinished_concat, ← h.printing_iff]
      by_cases hopens : Opens chunk
      · simp [hopens]
      · by_cases hcompletes : Completes chunk <;> simp [hopens, hcompletes]
    · rw [List.filterMap_append]
      exact (List.getLast?_concat).symm

theorem follows_run (name model : String) (history : List Operation) :
    Follows name model history (({ name, model } : Emulator).run history) := by
  -- A history grows at its end, so that is where the induction takes an operation off.
  induction history using List.reverseRecOn with
  | nil => exact follows_new name model
  | append_singleton history operation ih =>
    have hrun : ({ name, model } : Emulator).run (history ++ [operation]) =
        (({ name, model } : Emulator).run history).step operation := List.foldl_concat ..
    rw [hrun]
    exact ih.step operation

/-- A printer that has finished fewer labels than 64 bits can count has counted them all. -/
theorem Follows.jobs_toNat {name model : String} {history : List Operation} {e : Emulator}
    (h : Follows name model history e)
    (hfew : completed (history.filterMap Operation.chunk?) < Nat.pow 2 64) :
    e.jobs.toNat = completed (sinceReset history) := by
  have hle : completed (sinceReset history) ≤ completed (history.filterMap Operation.chunk?) :=
    ((List.rtakeWhile_suffix ..).sublist.filterMap _).countP_le
  rw [h.jobs_eq, UInt64.toNat_ofNat']
  exact Nat.mod_eq_of_lt (Nat.lt_of_le_of_lt hle hfew)

end Emulator

end LabelFleet.Printer
