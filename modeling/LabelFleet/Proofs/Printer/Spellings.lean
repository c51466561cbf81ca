import LabelFleet.Proofs.Printer.SettingsLanguage

/-! Settings are told in many ways: the fields in any order, each number plain or as a string. What
comes back is the settings, but for the last place of a width or a length that is told plain. -/
namespace LabelFleet.Printer.Settings

/-! ### Spellings -/

/-- A whole number is told plain, or as a string that holds its digits between blanks. -/
def SpellsWord (n : UInt32) (v : Json) : Prop :=
  v = .natural n.toNat ∨ ∃ t, v = .string t ∧ Text.Trimmed t.toList (Digits.ofNat n.toNat)

/-- The text of a double, in any style if it is finite. -/
def FloatText (x : Float) (number : List Char) : Prop :=
  (Binary64.isFinite x = true ∧ ∃ style : Style, number = style.text x) ∨
    (x = Binary64.infinity ∧ number = "inf".toList) ∨ (x = Binary64.nan ∧ number = "nan".toList)

/-- A double is told plain if it is finite, or as a string that holds its text between blanks. -/
def SpellsFloat (x : Float) (v : Json) : Prop :=
  (v = .double x ∧ Binary64.isFinite x = true) ∨
    ∃ t number, v = .string t ∧ Text.Trimmed t.toList number ∧ FloatText x number

/-- A spelling of one field of the settings. -/
def Spells (s : Settings) : Field → Json → Prop
  | .name, v => v = .string s.name
  | .model, v => v = .string s.model
  | .dpi, v => SpellsWord s.dpi v
  | .width, v => SpellsFloat s.width v
  | .length, v => SpellsFloat s.length v
  | .darkness, v => SpellsWord s.darkness v
  | .speed, v => SpellsWord s.speed v

/-- What comes back of a double: itself from a string, and from a plain number what a reader of JSON
makes of its text, which is the double itself if that text is short. -/
def ComesBack (x : Float) (v : Json) (y : Float) : Prop :=
  match v with
  | .double _ => Json.parse (Style.json.text x) = .ok (.double y) ∧ Binary64.isFinite y = true ∧
      (Json.Short x → y = x)
  | _ => y = x

theorem read_floatText {x : Float} {number : List Char} (h : FloatText x number) :
    Number.read number = .ok x := by
  rcases h with ⟨hx, style, rfl⟩ | ⟨rfl, rfl⟩ | ⟨rfl, rfl⟩
  · exact Number.read_text style hx
  · rfl
  · rfl

theorem exists_told_word {n : UInt32} {v : Json} (h : SpellsWord n v) :
    ∃ w, ReadsAs v w ∧ TellsWord n w := by
  rcases h with rfl | ⟨t, rfl, htrim⟩
  · exact ⟨_, readsAs_natural n, .inl rfl⟩
  · exact ⟨_, readsAs_string t, .inr ⟨t, _, _, rfl, htrim, .inl rfl, Digits.denotes_ofNat _⟩⟩

theorem exists_told_float {x : Float} {v : Json} (h : SpellsFloat x v) :
    ∃ y w, ReadsAs v w ∧ TellsFloat y w ∧ ComesBack x v y := by
  rcases h with ⟨rfl, hx⟩ | ⟨t, number, rfl, htrim, htext⟩
  · obtain ⟨y, hy, hshort, hparse, hreads⟩ := Json.exists_reads_double hx
    exact ⟨y, .double y, readsAs_of_reads (hreads _), ⟨rfl, hy⟩, hparse, hy, hshort⟩
  · refine ⟨x, .string t, readsAs_string t, ?_, rfl⟩
    rw [TellsFloat, Text.trimmed_iff.mp htrim]
    exact read_floatText htext

variable {s : Settings} {members : List (Field × Json)}

/-- The text of an object whose members tell of the fields. -/
def objectText (members : List (Field × Json)) : List Char :=
  (Json.object (members.map fun m => (m.1.label, m.2))).compact

theorem trim_objectText (hne : members ≠ []) :
    Text.trim (objectText members) = objectText members :=
  Text.trim_of_unpadded (unpadded_object hne)

/-- Only one member tells of a field. -/
theorem exists_member (hfields : (members.map Prod.fst).Perm Field.all) (f : Field) :
    ∃ v, (f, v) ∈ members ∧ ∀ w, (f, w) ∈ members → w = v := by
  have hnodup : (members.map Prod.fst).Nodup := hfields.nodup_iff.mpr (by decide)
  obtain ⟨⟨_, v⟩, hv, rfl⟩ := List.mem_map.mp (hfields.mem_iff.mpr f.mem_all)
  refine ⟨v, hv, ?_⟩
  intro w hw
  exact congrArg Prod.snd (List.inj_on_of_nodup_map hnodup hw hv rfl)

/-- However the fields are spelled and in whatever order they stand, the settings come back. -/
theorem exists_parse_objectText (hfields : (members.map Prod.fst).Perm Field.all)
    (hspells : ∀ m ∈ members, Spells s m.1 m.2) : ∃ width length,
      parse (objectText members) = .ok { s with width := width, length := length } ∧
        (∀ v, (Field.width, v) ∈ members → ComesBack s.width v width) ∧
        ∀ v, (Field.length, v) ∈ members → ComesBack s.length v length := by
  obtain ⟨v, hv, hwidth⟩ := exists_member hfields .width
  obtain ⟨v', hv', hlength⟩ := exists_member hfields .length
  obtain ⟨y, w, hreads, htells, hback⟩ := exists_told_float (hspells _ hv)
  obtain ⟨y', w', hreads', htells', hback'⟩ := exists_told_float (hspells _ hv')
  have htold : ∀ m ∈ members, Told { s with width := y, length := y' } m := by
    rintro ⟨f, u⟩ hm
    have hspell := hspells _ hm
    cases f with
    | name | model =>
      obtain rfl := hspell
      exact ⟨_, readsAs_string _, rfl⟩
    | dpi | darkness | speed => exact exists_told_word hspell
    | width =>
      obtain rfl := hwidth u hm
      exact ⟨w, hreads, htells⟩
    | length =>
      obtain rfl := hlength u hm
      exact ⟨w', hreads', htells'⟩
  refine ⟨y, y', ?_, ?_, ?_⟩
  · rw [parse, trim_objectText (ne_nil_of_perm hfields)]
    exact read_object hfields htold
  · intro u hu
    exact hwidth u hu ▸ hback
  · intro u hu
    exact hlength u hu ▸ hback'

/-! ### Numbers that are not finite -/

/-- The members of the settings' own text. -/
def fieldMembers (s : Settings) : List (Field × Json) :=
  [(.name, .string s.name), (.model, .string s.model), (.dpi, .natural s.dpi.toNat),
    (.width, .number s.width), (.length, .number s.length),
    (.darkness, .natural s.darkness.toNat), (.speed, .natural s.speed.toNat)]

theorem compact_toJson (s : Settings) : s.toJson.compact = objectText s.fieldMembers := rfl

/-- A number is read from its text, and so is the null that stands for one that is not finite. -/
theorem exists_readsAs_number (x : Float) : ∃ w, ReadsAs (.number x) w := by
  rw [Json.number]
  split_ifs with hx
  · obtain ⟨y, w, hreads, -⟩ := exists_told_float (.inl ⟨rfl, hx⟩)
    exact ⟨w, hreads⟩
  · exact ⟨.null, readsAs_null⟩

theorem exists_readsAs {m : Field × Json} (h : m ∈ s.fieldMembers) : ∃ w, ReadsAs m.2 w := by
  rw [fieldMembers] at h
  simp only [List.mem_cons, List.not_mem_nil, or_false] at h
  rcases h with rfl | rfl | rfl | rfl | rfl | rfl | rfl
  · exact ⟨_, readsAs_string _⟩
  · exact ⟨_, readsAs_string _⟩
  · exact ⟨_, readsAs_natural _⟩
  · exact exists_readsAs_number _
  · exact exists_readsAs_number _
  · exact ⟨_, readsAs_natural _⟩
  · exact ⟨_, readsAs_natural _⟩

/-- Where a null tells of a field, nothing is read. -/
theorem parse_ne_ok_of_null {f : Field} (hnull : (f, Json.null) ∈ members)
    (hreads : ∀ m ∈ members, ∃ w, ReadsAs m.2 w) : parse (objectText members) ≠ .ok s := by
  intro h
  have hne : members ≠ [] := List.ne_nil_of_mem hnull
  obtain ⟨g, hg⟩ : ∃ g : Json → Json, ∀ m ∈ members, ReadsAs m.2 (g m.2) := by
    have hchoice : ∀ v, ∃ w, (∃ m ∈ members, m.2 = v) → ReadsAs v w := by
      intro v
      by_cases hv : ∃ m ∈ members, m.2 = v
      · obtain ⟨m, hm, rfl⟩ := hv
        obtain ⟨w, hw⟩ := hreads m hm
        exact ⟨w, fun _ => hw⟩
      · exact ⟨v, fun h => absurd h hv⟩
    choose g hg using hchoice
    exact ⟨g, fun m hm => hg m.2 ⟨m, hm, rfl⟩⟩
  rw [parse, trim_objectText hne] at h
  obtain ⟨ms, hgives, -, htells⟩ := exists_gives_of_read h
  obtain rfl := (gives_object hne hg).unique hgives
  have hfollows : Json.Follows [] := by rintro _ ⟨⟩
  have hg' : g .null = .null := by
    have hread := (hg _ hnull [] hfollows).symm.trans (readsAs_null [] hfollows)
    exact congrArg Prod.fst (Except.ok.inj hread)
  have htell := htells _ (List.mem_map.mpr ⟨_, hnull, rfl⟩)
  simp only [hg'] at htell
  cases f <;> simp [Tells, TellsWord, TellsFloat] at htell

theorem parse_ne_ok
    (hinfinite : ¬ (Binary64.isFinite s.width = true ∧ Binary64.isFinite s.length = true))
    (hperm : members.Perm s.fieldMembers) (s' : Settings) :
    parse (objectText members) ≠ .ok s' := by
  have hreads : ∀ m ∈ members, ∃ w, ReadsAs m.2 w :=
    fun m hm => exists_readsAs (hperm.mem_iff.mp hm)
  have hnumber {x : Float} (h : ¬ Binary64.isFinite x = true) : Json.number x = .null := if_neg h
  rw [not_and_or] at hinfinite
  rcases hinfinite with h | h
  · have hmem : (Field.width, Json.null) ∈ s.fieldMembers := by simp [fieldMembers, hnumber h]
    exact parse_ne_ok_of_null (hperm.mem_iff.mpr hmem) hreads
  · have hmem : (Field.length, Json.null) ∈ s.fieldMembers := by simp [fieldMembers, hnumber h]
    exact parse_ne_ok_of_null (hperm.mem_iff.mpr hmem) hreads

/-- Of one choice of spellings: every number plain. -/
theorem spells_fieldMembers (hwidth : Binary64.isFinite s.width = true)
    (hlength : Binary64.isFinite s.length = true) {m : Field × Json} (h : m ∈ s.fieldMembers) :
    Spells s m.1 m.2 := by
  have hnumber {x : Float} (h : Binary64.isFinite x = true) : Json.number x = .double x := if_pos h
  rw [fieldMembers, hnumber hwidth, hnumber hlength] at h
  simp only [List.mem_cons, List.not_mem_nil, or_false] at h
  rcases h with rfl | rfl | rfl | rfl | rfl | rfl | rfl
  · rfl
  · rfl
  · exact .inl rfl
  · exact .inl ⟨rfl, hwidth⟩
  · exact .inl ⟨rfl, hlength⟩
  · exact .inl rfl
  · exact .inl rfl

/-- Settings are read back from an object with the fields in any order and each number in either
spelling, and from their own text if both doubles are finite; a text in which one is not is refused.
A plain width or length is what a reader of JSON makes of its text. Whatever line settings are read
from gives every field one value, and the settings have that value there. -/
theorem parse_spellings (s : Settings) :
    (∀ members : List (Field × Json), (members.map Prod.fst).Perm Field.all →
      (∀ m ∈ members, Spells s m.1 m.2) → ∃ width length,
        parse (objectText members) = .ok { s with width := width, length := length } ∧
          (∀ v, (Field.width, v) ∈ members → ComesBack s.width v width) ∧
          ∀ v, (Field.length, v) ∈ members → ComesBack s.length v length) ∧
      (Binary64.isFinite s.width = true → Binary64.isFinite s.length = true → ∃ width length,
        parse s.toJson.compact = .ok { s with width := width, length := length } ∧
          ComesBack s.width (.double s.width) width ∧
          ComesBack s.length (.double s.length) length) ∧
      (¬ (Binary64.isFinite s.width = true ∧ Binary64.isFinite s.length = true) →
        (∀ s', parse s.toJson.compact ≠ .ok s') ∧
          ∀ members : List (Field × Json), members.Perm s.fieldMembers →
            ∀ s', parse (objectText members) ≠ .ok s') ∧
      ∀ line, parse line = .ok s → (∃ ms, Gives (Text.trim line) ms) ∧
        ∀ ms, Gives (Text.trim line) ms → (ms.map Prod.fst).Perm Field.all ∧
          ∀ m ∈ ms, Tells s m.1 m.2 := by
  refine ⟨fun members => exists_parse_objectText, ?_, ?_, ?_⟩
  · intro hwidth hlength
    have hfields : (s.fieldMembers.map Prod.fst).Perm Field.all := .refl _
    obtain ⟨width, length, hparse, hback, hback'⟩ :=
      exists_parse_objectText hfields fun _ hm => spells_fieldMembers hwidth hlength hm
    refine ⟨width, length, s.compact_toJson ▸ hparse, hback _ ?_, hback' _ ?_⟩
    · simp [fieldMembers, Json.number, hwidth]
    · simp [fieldMembers, Json.number, hlength]
  · intro hinfinite
    rw [compact_toJson]
    exact ⟨parse_ne_ok hinfinite (.refl _), fun members => parse_ne_ok hinfinite⟩
  · intro line h
    obtain ⟨ms, hgives, hfields, htells⟩ := exists_gives_of_read h
    refine ⟨⟨ms, hgives⟩, ?_⟩
    intro ms' hgives'
    obtain rfl := hgives.unique hgives'
    exact ⟨hfields, htells⟩

/-- An object with the fields in an order of its own, three of its numbers told by strings and two
of these padded. -/
theorem parse_spellings_padded :
    let s : Settings := ⟨"Dock \"3\"", "ZT230", 203, 4, 6.5, 10, 2⟩
    let members : List (Field × Json) := [(.speed, .string "\t2 "), (.length, .double 6.5),
      (.name, .string "Dock \"3\""), (.dpi, .natural 203), (.width, .string " 4.0\n"),
      (.darkness, .string "10"), (.model, .string "ZT230")]
    (members.map Prod.fst).Perm Field.all ∧ (∀ m ∈ members, Spells s m.1 m.2) ∧
      parse (objectText members) = .ok s := by
  intro s members
  have hfields : (members.map Prod.fst).Perm Field.all := by decide
  have hspells : ∀ m ∈ members, Spells s m.1 m.2 := by
    simp only [members, List.forall_mem_cons]
    refine ⟨.inr ⟨"\t2 ", rfl, Text.trimmed_iff.mpr (by decide +kernel)⟩, .inl ⟨rfl, by decide⟩,
      rfl, .inl rfl, .inr ⟨" 4.0\n", "4.0".toList, rfl, Text.trimmed_iff.mpr (by decide), ?_⟩,
      .inr ⟨"10", rfl, Text.trimmed_iff.mpr (by decide +kernel)⟩, rfl, by simp⟩
    exact .inl ⟨by decide, .json, by decide +kernel⟩
  have hshort : Json.Short s.length :=
    ⟨⟨65, -1⟩, by decide +kernel, by decide, by decide, by decide⟩
  obtain ⟨width, length, hparse, hwidth, hlength⟩ := (parse_spellings s).1 members hfields hspells
  have hwidth : width = s.width := hwidth (.string " 4.0\n") (by simp [members])
  have hlength : length = s.length := (hlength (.double 6.5) (by simp [members])).2.2 hshort
  rw [hwidth, hlength] at hparse
  exact ⟨hfields, hspells, hparse⟩

/-- A plain width need not come back as it was: the reader computes it from the doubles of its
digits and of a power of ten. -/
theorem not_every_width_kept : ¬ ∀ s : Settings, Binary64.isFinite s.width = true →
    Binary64.isFinite s.length = true → parse s.toJson.compact = .ok s := by
  intro h
  have hkept := h ⟨"a", "b", 203, 9.027777777777779, 1.5, 10, 2⟩ (by decide) (by decide)
  have hwidth : (parse (toJson ⟨"a", "b", 203, 9.027777777777779, 1.5, 10, 2⟩).compact).toOption.map
      (·.width.toBits) = some (9.02777777777778 : Float).toBits := by
    decide +kernel
  rw [hkept] at hwidth
  exact absurd hwidth (by decide)

end LabelFleet.Printer.Settings
