import LabelFleet.Proofs.Printer.ReplyLines
import Mathlib.Data.List.Forall2

/-! Which lines the readers of a printer's replies accept, and what they read from them. -/
namespace LabelFleet.Printer

/-- Within its outer blanks the line is pieces without commas, with a comma between one and the
next; the values are the pieces without the blanks around them. -/
def Tells (line : List Char) (values : List (List Char)) : Prop :=
  ∃ body parts, Text.Trimmed line body ∧ parts ≠ [] ∧ (∀ p ∈ parts, ',' ∉ p) ∧
    [','].intercalate parts = body ∧ parts.Forall₂ Text.Trimmed values

theorem fields_eq_iff {line : List Char} {values : List (List Char)} :
    fields line = values ↔ Tells line values := by
  constructor
  · rintro rfl
    obtain ⟨hne, hcomma, hjoin⟩ := Text.pieces_eq_iff.mp (Eq.refl (Text.pieces ',' (Text.trim line)))
    refine ⟨Text.trim line, _, Text.trimmed_trim line, hne, hcomma, hjoin, ?_⟩
    rw [fields, List.forall₂_map_right_iff, List.forall₂_same]
    exact fun p _ => Text.trimmed_trim p
  · rintro ⟨body, parts, hbody, hne, hcomma, hjoin, hvalues⟩
    have hparts : (parts.map Text.trim).Forall₂ Eq values := by
      rw [List.forall₂_map_left_iff]
      exact hvalues.imp fun _ _ => Text.trimmed_iff.mp
    rw [fields, Text.trimmed_iff.mp hbody, Text.pieces_eq_iff.mpr ⟨hne, hcomma, hjoin⟩]
    rwa [List.forall₂_eq_eq_eq] at hparts

/-- Values that are not padded stand on a line as they are. -/
theorem tells_intercalate {values : List (List Char)} (hne : values ≠ [])
    (hcomma : ∀ v ∈ values, ',' ∉ v) (hunpadded : ∀ v ∈ values, Text.Unpadded v) :
    Tells ([','].intercalate values) values := by
  rw [← fields_eq_iff, ← fields_congr (Text.trim_append_lineFeed _)]
  exact fields_intercalate hne hcomma hunpadded

theorem State.parse_eq_ok_iff {s : List Char} {state : State} :
    State.parse s = .ok state ↔ Text.Trimmed s state.name.toList := by
  rw [Text.trimmed_iff]
  constructor
  · intro h
    rw [State.parse] at h
    split_ifs at h <;> cases h <;> assumption
  · intro h
    rw [State.parse, h]
    cases state <;> decide

namespace Status

theorem parse_of_fields {line name number : List Char}
    (h : fields line = ["STATUS:".toList ++ name, "JOBS:".toList ++ number]) :
    parse line = (do
      let state ← State.parse name
      match Digits.read (Nat.pow 2 64) number with
      | .ok n => .ok ⟨state, n⟩
      | .error _ => .error (.badJobs number)) := by
  have hstatus : Text.after? "STATUS:".toList ("STATUS:".toList ++ name) = some name :=
    Text.after?_eq_some_iff.mpr rfl
  have hjobs : Text.after? "JOBS:".toList ("JOBS:".toList ++ number) = some number :=
    Text.after?_eq_some_iff.mpr rfl
  rw [parse, h]
  simp only [hstatus, hjobs]
  rfl

/-- Nothing is read from a line without its two labels. -/
theorem exists_fields_of_parse {line : List Char} {s : Status} (h : parse line = .ok s) :
    ∃ name number, fields line = ["STATUS:".toList ++ name, "JOBS:".toList ++ number] := by
  rw [parse] at h
  split at h
  · next status jobs hfields =>
    cases hname : Text.after? "STATUS:".toList status with
    | none =>
      rw [hname] at h
      contradiction
    | some name =>
      simp only [hname] at h
      cases hnumber : Text.after? "JOBS:".toList jobs with
      | none =>
        simp only [hnumber] at h
        cases hstate : State.parse name <;> rw [hstate] at h <;> contradiction
      | some number =>
        rw [hfields, Text.after?_eq_some_iff.mp hname, Text.after?_eq_some_iff.mp hnumber]
        exact ⟨name, number, rfl⟩
  · contradiction

theorem parse_eq_ok_iff_fields {line : List Char} {s : Status} :
    parse line = .ok s ↔ ∃ name number,
      fields line = ["STATUS:".toList ++ name, "JOBS:".toList ++ number] ∧
        State.parse name = .ok s.state ∧ Digits.read (Nat.pow 2 64) number = .ok s.jobs := by
  constructor
  · intro h
    obtain ⟨name, number, hfields⟩ := exists_fields_of_parse h
    rw [parse_of_fields hfields] at h
    refine ⟨name, number, hfields, ?_⟩
    cases hstate : State.parse name with
    | error fault =>
      rw [hstate] at h
      contradiction
    | ok state =>
      rw [hstate] at h
      cases hnumber : Digits.read (Nat.pow 2 64) number with
      | error e =>
        simp only [hnumber] at h
        contradiction
      | ok n =>
        simp only [hnumber] at h
        cases h
        exact ⟨rfl, rfl⟩
  · rintro ⟨name, number, hfields, hstate, hnumber⟩
    rw [parse_of_fields hfields, hstate, hnumber]
    rfl

/-- The line has two values. The first one is a label and the name of the state; the second one is a
label and the number of jobs, in digits after at most one plus sign and below the bound. -/
def ToldBy (line : List Char) (s : Status) : Prop :=
  ∃ name number digits, Tells line ["STATUS:".toList ++ name, "JOBS:".toList ++ number] ∧
    Text.Trimmed name s.state.name.toList ∧ (number = digits ∨ number = '+' :: digits) ∧
      Digits.Denotes digits s.jobs ∧ s.jobs < Nat.pow 2 64

theorem parse_eq_ok_iff {line : List Char} {s : Status} : parse line = .ok s ↔ s.ToldBy line := by
  rw [parse_eq_ok_iff_fields, ToldBy]
  simp only [fields_eq_iff, State.parse_eq_ok_iff, Digits.read_eq_ok_iff, exists_and_left]

/-- A status is told by the line that is written for it. -/
theorem toldBy_text {s : Status} (h : s.jobs < Nat.pow 2 64) : s.ToldBy s.text.toList := by
  refine ⟨s.state.name.toList, Digits.ofNat s.jobs, Digits.ofNat s.jobs, ?_, ?_, .inl rfl,
    Digits.denotes_ofNat s.jobs, h⟩
  · rw [toList_text]
    exact tells_intercalate (List.cons_ne_nil _ _) s.comma_not_mem_values s.unpadded_values
  · exact Text.trimmed_iff.mpr (Text.trim_of_unpadded s.state.unpadded_name)

end Status

namespace Identity

/-- The line has five values; the last one is the name of the state, and the others are taken as
they stand there. -/
def ToldBy (line : List Char) (i : Identity) : Prop :=
  ∃ name, Tells line [i.name.toList, i.model.toList, i.firmware.toList, i.serial.toList, name] ∧
    Text.Trimmed name i.state.name.toList

theorem parse_eq_ok_iff {line : List Char} {i : Identity} :
    parse line = .ok i ↔ i.ToldBy line := by
  simp only [ToldBy, ← fields_eq_iff, ← State.parse_eq_ok_iff]
  constructor
  · intro h
    rw [parse] at h
    split at h
    · next name model firmware serial last hfields =>
      cases hstate : State.parse last with
      | error fault =>
        rw [hstate] at h
        contradiction
      | ok state =>
        rw [hstate] at h
        cases h
        simp only [String.toList_ofList]
        exact ⟨last, hfields, hstate⟩
    · contradiction
  · rintro ⟨last, hfields, hstate⟩
    rw [parse, hfields]
    simp only [hstate, String.ofList_toList]
    rfl

end Identity

/-- A reader that fails says that the reply is malformed. -/
theorem exists_malformed {α : Type} {read : Except ReplyFault α} (h : ∀ a, read ≠ .ok a) :
    ∃ fault details, read = .error fault ∧ fault.toError = .malformedResponse details := by
  cases read with
  | ok a => exact absurd rfl (h a)
  | error fault => exact ⟨fault, fault.message, rfl, rfl⟩

/-- Of all lines the readers accept those that tell a status, or an identity, and read what is told
there. Any other line is a malformed response. A status that has been read is read again from the
line that is written for it. -/
theorem parse_accepts_told (line : List Char) :
    (∀ s : Status, Status.parse line = .ok s ↔ s.ToldBy line) ∧
      (∀ i : Identity, Identity.parse line = .ok i ↔ i.ToldBy line) ∧
      ((∀ s : Status, ¬ s.ToldBy line) → ∃ fault details,
        Status.parse line = .error fault ∧ fault.toError = .malformedResponse details) ∧
      ((∀ i : Identity, ¬ i.ToldBy line) → ∃ fault details,
        Identity.parse line = .error fault ∧ fault.toError = .malformedResponse details) ∧
      ∀ s : Status, Status.parse line = .ok s → Status.parse s.text.toList = .ok s := by
  refine ⟨fun _ => Status.parse_eq_ok_iff, fun _ => Identity.parse_eq_ok_iff, ?_, ?_, ?_⟩
  · intro h
    exact exists_malformed fun s hs => h s (Status.parse_eq_ok_iff.mp hs)
  · intro h
    exact exists_malformed fun i hi => h i (Identity.parse_eq_ok_iff.mp hi)
  · intro s hs
    obtain ⟨_, _, _, _, _, _, _, hjobs⟩ := Status.parse_eq_ok_iff.mp hs
    exact Status.parse_eq_ok_iff.mpr (Status.toldBy_text hjobs)

end LabelFleet.Printer
