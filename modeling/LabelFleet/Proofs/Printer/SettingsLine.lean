import LabelFleet.Printer.Emulator
import LabelFleet.Proofs.Json.Documents
import LabelFleet.Proofs.Printer.Fields

/-! Settings that have been written as an object are read back, whatever order the fields stand in
and however each of them is told. -/
namespace LabelFleet.Printer.Settings

open Json (stringText Follows)

/-! ### One member -/

/-- What is read from the text of a value, whatever follows it. -/
def ReadsAs (v w : Json) : Prop := ∀ s, Follows s → readValue (v.compact ++ s) = .ok (w, s)

theorem readsAs_of_reads {v w : Json} (h : Json.Reads (Json.depthLimit - 1) v w) :
    ReadsAs v w := by
  intro s hs
  have hfuel : 2 * v.compact.length ≤ Json.fuelFor (v.compact ++ s) := by
    rw [Json.fuelFor, List.length_append]
    omega
  rw [readValue, h _ s hfuel hs]
  rfl

theorem readsAs_string (t : String) : ReadsAs (.string t) (.string t) :=
  readsAs_of_reads (Json.reads_string _ t)

theorem readsAs_null : ReadsAs .null .null := fun _ _ => rfl

theorem readsAs_natural (n : UInt32) : ReadsAs (.natural n.toNat) (.natural n.toNat) := by
  have hlt := n.toNat_lt
  apply readsAs_of_reads
  exact Json.reads_of_forall_succ fun _ _ hs => Json.readValue_natural (by omega) hs _ _

/-- A member tells of its field: what is read from its text has the value that the settings have
there. -/
def Told (s : Settings) (m : Field × Json) : Prop := ∃ w, ReadsAs m.2 w ∧ Tells s m.1 w

theorem ofLabel?_label (f : Field) : Field.ofLabel? f.label = some f := by
  cases f <;> decide

/-- A member as it stands in an object, behind a comma. -/
def memberText (m : Field × Json) : List Char :=
  ',' :: stringText m.1.label ++ ':' :: m.2.compact

theorem memberText_append (f : Field) (v : Json) (s : List Char) :
    memberText (f, v) ++ s = ',' :: (stringText f.label ++ ':' :: (v.compact ++ s)) := by
  simp [memberText]

theorem memberText_ne_nil (m : Field × Json) : memberText m ≠ [] := by
  simp [memberText]

theorem compactMembers_map (members : List (Field × Json)) :
    Json.compactMembers (members.map fun m => (m.1.label, m.2)) =
      members.flatMap memberText ++ ['\x7d'] := by
  induction members with
  | nil => rfl
  | cons m members ih =>
    rw [List.map_cons, Json.compactMembers, ih, List.flatMap_cons, memberText]
    simp

/-- The name of a member is read up to its colon. -/
theorem nextName_memberText (f : Field) (v : Json) (s : List Char) :
    Json.nextName false (memberText (f, v) ++ s) =
      .ok (some f.label, ':' :: (v.compact ++ s)) := by
  rw [memberText_append]
  exact (Json.nextName_stringText f.label _).2

/-- What stands between the members of an object is not part of a number. -/
theorem follows_members (members : List (Field × Json)) {s : List Char} (hs : Follows s) :
    Follows (members.flatMap memberText ++ s) := by
  cases members with
  | nil => exact hs
  | cons m members =>
    intro c hc
    rw [List.flatMap_cons, List.append_assoc, memberText_append] at hc
    cases hc
    decide

theorem follows_brace (s : List Char) : Follows ('\x7d' :: s) := by
  rintro _ ⟨⟩
  decide

variable {settings : Settings}

/-- One member is read, and what follows it is left. -/
theorem readMembers_memberText {d : Draft} {f : Field} {v : Json} (hfree : d.has f = false)
    (htold : Told settings (f, v)) (fuel : ℕ) {s : List Char} (hs : Follows s) :
    readMembers false d (fuel + 1) (memberText (f, v) ++ s) =
      readMembers false (d.fill settings f) fuel s := by
  obtain ⟨w, hreads, htells⟩ := htold
  have hcolon : Json.readColon (':' :: (v.compact ++ s)) = .ok (v.compact ++ s) := rfl
  have hread := Draft.read_eq_ok_iff.mpr ⟨w, settings, hreads s hs, htells, Eq.refl (d.fill settings f)⟩
  rw [readMembers, nextName_memberText]
  simp only [json, bind, Except.bind, ofLabel?_label, hfree, hcolon, hread]
  rfl

/-- All members of an object are read, each with a name of its own. -/
theorem readMembers_flatMap {members : List (Field × Json)} {d : Draft}
    (hfree : ∀ m ∈ members, d.has m.1 = false) (hnodup : (members.map Prod.fst).Nodup)
    (htold : ∀ m ∈ members, Told settings m) (fuel : ℕ) {s : List Char} (hs : Follows s) :
    readMembers false d (fuel + members.length) (members.flatMap memberText ++ s) =
      readMembers false (d.fillAll settings (members.map Prod.fst)) fuel s := by
  -- A field that has been taken is not among the members that follow, so theirs stay free.
  induction members generalizing d with
  | nil => rfl
  | cons m members ih =>
    obtain ⟨f, v⟩ := m
    rw [List.map_cons, List.nodup_cons] at hnodup
    rw [List.flatMap_cons, List.append_assoc, List.length_cons, ← Nat.add_assoc,
      readMembers_memberText (hfree (f, v) List.mem_cons_self) (htold (f, v) List.mem_cons_self) _
        (follows_members members hs)]
    refine ih ?_ hnodup.2 fun m hm => htold m (List.mem_cons_of_mem _ hm)
    intro m hm
    have hne : m.1 ≠ f := by
      intro heq
      exact hnodup.1 (List.mem_map.mpr ⟨m, hm, heq⟩)
    rw [Draft.has_fill_of_ne hne]
    exact hfree m (List.mem_cons_of_mem _ hm)

/-- No comma stands before the first member. -/
theorem readMembers_first (d : Draft) (fuel : ℕ) (name : String) (s : List Char) :
    readMembers true d fuel (stringText name ++ s) =
      readMembers false d fuel (',' :: (stringText name ++ s)) := by
  rw [Json.stringText_append]
  cases fuel <;> rfl

variable {members : List (Field × Json)}

/-- An object is its members in braces; the first one loses its comma. -/
theorem compact_object (hne : members ≠ []) : ∃ name s,
    members.flatMap memberText ++ ['\x7d'] = ',' :: (stringText name ++ s) ∧
      (Json.object (members.map fun m => (m.1.label, m.2))).compact =
        '\x7b' :: (stringText name ++ s) := by
  obtain ⟨⟨f, v⟩, rest, rfl⟩ := List.exists_cons_of_ne_nil hne
  refine ⟨f.label, ':' :: (v.compact ++ (rest.flatMap memberText ++ ['\x7d'])), ?_, ?_⟩
  · rw [List.flatMap_cons, List.append_assoc, memberText_append]
  · rw [List.map_cons, Json.compact, compactMembers_map]
    simp

theorem ne_nil_of_perm (h : (members.map Prod.fst).Perm Field.all) : members ≠ [] := by
  rintro rfl
  exact absurd h.symm.eq_nil (by decide)

/-- Settings are read back from an object with all fields, whatever order they stand in. -/
theorem read_object (hfields : (members.map Prod.fst).Perm Field.all)
    (htold : ∀ m ∈ members, Told settings m) :
    read (Json.object (members.map fun m => (m.1.label, m.2))).compact = .ok settings := by
  obtain ⟨name, s, htext, hcompact⟩ := compact_object (ne_nil_of_perm hfields)
  have hfree : ∀ m ∈ members, ({} : Draft).has m.1 = false := by
    intro m _
    cases m.1 <;> rfl
  have hnodup : (members.map Prod.fst).Nodup := hfields.nodup_iff.mpr (by decide)
  have hfuel : members.length ≤ (stringText name ++ s).length := by
    have hlength := congrArg List.length htext
    have := Json.length_le_flatMap memberText_ne_nil members
    rw [List.length_append, List.length_singleton, List.length_cons] at hlength
    omega
  obtain ⟨fuel, hfuel⟩ := Nat.exists_eq_add_of_le' hfuel
  have hread : readMembers true {} ((stringText name ++ s).length + 1) (stringText name ++ s) =
      .ok (Draft.fillAll {} settings (members.map Prod.fst), []) := by
    rw [readMembers_first, ← htext, hfuel, Nat.add_right_comm,
      readMembers_flatMap hfree hnodup htold _ (follows_brace [])]
    rfl
  have hfinish : (Draft.fillAll {} settings (members.map Prod.fst)).finish = .ok settings := by
    rw [Draft.finish_eq_ok_iff]
    exact fun f => Draft.knows_fillAll (.inl (hfields.mem_iff.mpr f.mem_all))
  rw [hcompact]
  change (do
    let r ← readMembers true {} ((stringText name ++ s).length + 1) (stringText name ++ s)
    let settings ← r.1.finish
    json (Json.atEnd r.2)
    return settings) = _
  rw [hread]
  change (do
    let settings ← (Draft.fillAll {} settings (members.map Prod.fst)).finish
    json (Json.atEnd [])
    return settings) = _
  rw [hfinish]
  rfl

/-! ### The object as a line -/

theorem unpadded_object (hne : members ≠ []) :
    Text.Unpadded (Json.object (members.map fun m => (m.1.label, m.2))).compact := by
  obtain ⟨name, s, htext, hcompact⟩ := compact_object hne
  have hlast : (stringText name ++ s).getLast? = some '\x7d' := by
    have := congrArg List.getLast? htext
    rw [Json.stringText_append, List.getLast?_concat, List.getLast?_cons_cons] at this
    rw [Json.stringText_append]
    exact this.symm
  rw [hcompact]
  constructor
  · simp [Text.isBlank]
  · rw [Json.stringText_append, List.getLast?_cons_cons, ← Json.stringText_append, hlast]
    simp [Text.isBlank]

theorem le_toNat_of_mem_memberText {c : Char} {m : Field × Json} (h : c ∈ memberText m)
    (hvalue : ∀ c ∈ m.2.compact, 0x20 ≤ c.toNat) : 0x20 ≤ c.toNat := by
  rw [memberText, List.cons_append, List.mem_cons, List.mem_append, List.mem_cons] at h
  rcases h with rfl | h | rfl | h
  · decide
  · exact Json.le_toNat_of_mem_stringText h
  · decide
  · exact hvalue c h

/-- No control character stands in an object if none stands in its values. -/
theorem le_toNat_of_mem_object (hne : members ≠ [])
    (hvalues : ∀ m ∈ members, ∀ c ∈ m.2.compact, 0x20 ≤ c.toNat) {c : Char}
    (h : c ∈ (Json.object (members.map fun m => (m.1.label, m.2))).compact) :
    0x20 ≤ c.toNat := by
  obtain ⟨name, s, htext, hcompact⟩ := compact_object hne
  rw [hcompact, List.mem_cons] at h
  rcases h with rfl | h
  · decide
  · have hmem : c ∈ members.flatMap memberText ++ ['\x7d'] := htext ▸ List.mem_cons_of_mem _ h
    rw [List.mem_append, List.mem_flatMap, List.mem_singleton] at hmem
    rcases hmem with ⟨m, hm, hc⟩ | rfl
    · exact le_toNat_of_mem_memberText hc (hvalues m hm)
    · decide

end LabelFleet.Printer.Settings

namespace LabelFleet.Printer.Emulator

open Settings (Field)

variable (e : Emulator)

/-- The settings that an emulated printer reports, in the order in which it does. -/
def settingsMembers : List (Field × Json) :=
  [(.darkness, .string "10"), (.dpi, .string "203"), (.length, .string "6.00"),
    (.model, .string e.model), (.name, .string e.name), (.speed, .string "2"),
    (.width, .string "4.00")]

theorem settingsMembers_ne_nil : e.settingsMembers ≠ [] := List.cons_ne_nil _ _

/-- All values are strings. -/
theorem exists_string {m : Field × Json} (h : m ∈ e.settingsMembers) : ∃ t, m.2 = .string t := by
  rw [settingsMembers] at h
  simp only [List.mem_cons, List.not_mem_nil, or_false] at h
  rcases h with rfl | rfl | rfl | rfl | rfl | rfl | rfl <;> exact ⟨_, rfl⟩

theorem le_toNat_of_mem_settingsMembers {m : Field × Json} (h : m ∈ e.settingsMembers) {c : Char}
    (hc : c ∈ m.2.compact) : 0x20 ≤ c.toNat := by
  obtain ⟨t, ht⟩ := e.exists_string h
  rw [ht] at hc
  exact Json.le_toNat_of_mem_stringText hc

theorem toList_settingsLine : e.settingsLine.toList =
    (Json.object (e.settingsMembers.map fun m => (m.1.label, m.2))).compact ++ ['\n'] := by
  have hjson : e.settingsJson = .object (e.settingsMembers.map fun m => (m.1.label, m.2)) := rfl
  rw [settingsLine, Json.compactText, hjson]
  simp [toString]

theorem length_hundreds {n : Nat} (h : 100 ≤ n ∧ n < 1000) : Decimal.length n = 3 := by
  rw [Decimal.length, if_neg (by omega), Digits.ofNat, if_neg (by omega), Digits.ofNat,
    if_neg (by omega), Digits.ofNat, if_pos (by omega)]
  rfl

theorem toFloat_width : Settings.toFloat (.string "4.00") = .ok 4.0 := by
  have hnearest : Decimal.nearest false ⟨400, -2⟩ = 4.0 := by
    rw [Decimal.nearest, length_hundreds (by decide)]
    decide
  change Except.ok (Decimal.nearest false ⟨400, -2⟩) = _
  rw [hnearest]

theorem toFloat_length : Settings.toFloat (.string "6.00") = .ok 6.0 := by
  have hnearest : Decimal.nearest false ⟨600, -2⟩ = 6.0 := by
    rw [Decimal.nearest, length_hundreds (by decide)]
    decide
  change Except.ok (Decimal.nearest false ⟨600, -2⟩) = _
  rw [hnearest]

/-- Each string tells of its field. -/
theorem told_settingsMembers {m : Field × Json} (h : m ∈ e.settingsMembers) :
    Settings.Told ⟨e.name, e.model, 203, 4.0, 6.0, 10, 2⟩ m := by
  rw [settingsMembers] at h
  simp only [List.mem_cons, List.not_mem_nil, or_false] at h
  rcases h with rfl | rfl | rfl | rfl | rfl | rfl | rfl
  · exact ⟨_, Settings.readsAs_string _, Settings.toWord_eq_ok_iff.mp rfl⟩
  · exact ⟨_, Settings.readsAs_string _, Settings.toWord_eq_ok_iff.mp rfl⟩
  · exact ⟨_, Settings.readsAs_string _, Settings.toFloat_eq_ok_iff.mp toFloat_length⟩
  · exact ⟨_, Settings.readsAs_string _, rfl⟩
  · exact ⟨_, Settings.readsAs_string _, rfl⟩
  · exact ⟨_, Settings.readsAs_string _, Settings.toWord_eq_ok_iff.mp rfl⟩
  · exact ⟨_, Settings.readsAs_string _, Settings.toFloat_eq_ok_iff.mp toFloat_width⟩

/-- The settings are read back from the line that tells them, whatever name and model hold. -/
theorem parse_settingsLine : Settings.parse e.settingsLine.toList =
    .ok ⟨e.name, e.model, 203, 4.0, 6.0, 10, 2⟩ := by
  have hfields : (e.settingsMembers.map Prod.fst).Perm Field.all := by
    change List.Perm [Field.darkness, .dpi, .length, .model, .name, .speed, .width] Field.all
    decide
  rw [Settings.parse, toList_settingsLine, Text.trim_append_lineFeed,
    Text.trim_of_unpadded (Settings.unpadded_object e.settingsMembers_ne_nil)]
  exact Settings.read_object hfields fun _ hm => e.told_settingsMembers hm

end LabelFleet.Printer.Emulator
