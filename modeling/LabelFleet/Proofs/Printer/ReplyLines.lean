import LabelFleet.Printer.Emulator
import LabelFleet.Proofs.Number.Decimals
import LabelFleet.Proofs.Text.Searching

/-! What a printer says about itself on one line is read back as it was meant. -/
namespace LabelFleet.Printer

/-- A text that can be told apart from what stands around it on a line. -/
structure Plain (s : String) : Prop where
  separator : ',' ∉ s.toList
  lineFeed : '\n' ∉ s.toList
  unpadded : Text.Unpadded s.toList

/-- A line of values with a line feed at its end is taken apart into the values. -/
theorem fields_intercalate {values : List (List Char)} (hne : values ≠ [])
    (hseparator : ∀ v ∈ values, ',' ∉ v) (hunpadded : ∀ v ∈ values, Text.Unpadded v) :
    fields ([','].intercalate values ++ ['\n']) = values := by
  have hcomma : Text.Unpadded [','] := Text.unpadded_of_ends rfl rfl
  have htrim : ∀ v ∈ values, Text.trim v = id v := by
    intro v hv
    exact Text.trim_of_unpadded (hunpadded v hv)
  rw [fields, Text.trim_append_lineFeed, Text.trim_of_unpadded (hcomma.intercalate hunpadded),
    Text.pieces_intercalate hne hseparator, List.map_congr_left htrim, List.map_id]

theorem fields_congr {s t : List Char} (h : Text.trim s = Text.trim t) : fields s = fields t := by
  rw [fields, fields, h]

namespace State

theorem not_mem_name {c : Char} (h : c.isAlpha = false) (state : State) :
    c ∉ state.name.toList := by
  have hletters : state.name.toList.all Char.isAlpha = true := by cases state <;> decide
  intro hmem
  rw [List.all_eq_true.mp hletters c hmem] at h
  contradiction

theorem unpadded_name (state : State) : Text.Unpadded state.name.toList := by
  cases state <;> exact Text.unpadded_of_ends rfl rfl

theorem parse_name (state : State) : parse state.name.toList = .ok state := by
  cases state <;> decide

end State

namespace Status

/-- What stands on the line that is written for a status. -/
def values (s : Status) : List (List Char) :=
  ["STATUS:".toList ++ s.state.name.toList, "JOBS:".toList ++ Digits.ofNat s.jobs]

theorem toList_text (s : Status) : s.text.toList = [','].intercalate s.values := by
  rw [text, Digits.text]
  simp [toString, List.intercalate, values]

theorem comma_not_mem_values (s : Status) : ∀ v ∈ s.values, ',' ∉ v := by
  simp only [values, List.forall_mem_cons, List.mem_append, not_or]
  exact ⟨⟨by decide, s.state.not_mem_name (by decide)⟩, ⟨by decide, Digits.not_mem_ofNat rfl _⟩,
    by simp⟩

theorem unpadded_values (s : Status) : ∀ v ∈ s.values, Text.Unpadded v := by
  simp only [values, List.forall_mem_cons]
  refine ⟨?_, ?_, by simp⟩
  · exact (Text.unpadded_of_ends rfl rfl).append s.state.unpadded_name
  · exact (Text.unpadded_of_ends rfl rfl).append (Digits.unpadded_ofNat _)

end Status

namespace Emulator

variable (e : Emulator)

/-! ### Status -/

theorem toList_statusLine :
    e.statusLine.toList = [','].intercalate e.status.values ++ ['\n'] := by
  rw [statusLine, ← Status.toList_text]
  simp [toString]

theorem fields_statusLine : fields e.statusLine.toList =
    ["STATUS:".toList ++ e.state.name.toList, "JOBS:".toList ++ Digits.ofNat e.jobs.toNat] := by
  rw [toList_statusLine]
  exact fields_intercalate (List.cons_ne_nil _ _) e.status.comma_not_mem_values
    e.status.unpadded_values

/-- The status is read back from the line that tells it. -/
theorem parse_statusLine : Status.parse e.statusLine.toList = .ok e.status := by
  have hstate : Text.after? "STATUS:".toList ("STATUS:".toList ++ e.state.name.toList) =
    some e.state.name.toList := Text.after?_eq_some_iff.mpr rfl
  have hjobs : Text.after? "JOBS:".toList ("JOBS:".toList ++ Digits.ofNat e.jobs.toNat) =
    some (Digits.ofNat e.jobs.toNat) := Text.after?_eq_some_iff.mpr rfl
  have hread : Digits.read (Nat.pow 2 64) (Digits.ofNat e.jobs.toNat) = .ok e.jobs.toNat :=
    Digits.read_ofNat e.jobs.toNat_lt
  rw [Status.parse, fields_statusLine]
  simp only [hstate, hjobs, State.parse_name, bind, Except.bind, hread]
  rfl

/-! ### Identity -/

/-- What the printer answers when it is asked who it is. -/
def identity : Identity := ⟨e.name, e.model, "V1.0", "12345", e.state⟩

theorem toList_identityLine : e.identityLine.toList =
    [','].intercalate [e.name.toList, e.model.toList, "V1.0".toList, "12345".toList,
      e.state.name.toList] ++ ['\n'] := by
  rw [identityLine]
  simp [toString, List.intercalate]

variable {e}

theorem fields_identityLine (hname : Plain e.name) (hmodel : Plain e.model) :
    fields e.identityLine.toList =
      [e.name.toList, e.model.toList, "V1.0".toList, "12345".toList, e.state.name.toList] := by
  rw [toList_identityLine]
  apply fields_intercalate (List.cons_ne_nil _ _)
  · simp only [List.forall_mem_cons]
    exact ⟨hname.separator, hmodel.separator, by decide, by decide,
      e.state.not_mem_name (by decide), by simp⟩
  · simp only [List.forall_mem_cons]
    exact ⟨hname.unpadded, hmodel.unpadded, Text.unpadded_of_ends rfl rfl,
      Text.unpadded_of_ends rfl rfl, e.state.unpadded_name, by simp⟩

/-- The identity is read back from the line that tells it, if name and model are plain. -/
theorem parse_identityLine (hname : Plain e.name) (hmodel : Plain e.model) :
    Identity.parse e.identityLine.toList = .ok e.identity := by
  rw [Identity.parse, fields_identityLine hname hmodel]
  simp only [State.parse_name, String.ofList_toList]
  rfl

end Emulator

end LabelFleet.Printer
