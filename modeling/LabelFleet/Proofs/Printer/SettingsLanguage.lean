import LabelFleet.Proofs.Printer.SettingsLine

/-! Which values a line gives to the fields of the settings, as an object or as an array, and what
the reader takes from a line that it accepts. -/
namespace LabelFleet.Printer.Settings

open Json (stringText)

/-! ### What a line gives -/

/-- The members of an object up to its closing brace give values to the fields that they name.
Members with other names are passed over. -/
inductive GivesMembers : Bool → List Char → List (Field × Json) → List Char → Prop
  | close {first : Bool} {s rest : List Char} :
    Json.nextName first s = .ok (none, rest) → GivesMembers first s [] rest
  | pass {first : Bool} {s s₁ s₂ s₃ rest : List Char} {name : String} {ms : List (Field × Json)} :
    Json.nextName first s = .ok (some name, s₁) → Field.ofLabel? name = none →
      Json.readColon s₁ = .ok s₂ → Json.skip s₂ = .ok s₃ → GivesMembers false s₃ ms rest →
      GivesMembers first s ms rest
  | give {first : Bool} {s s₁ s₂ s₃ rest : List Char} {name : String} {f : Field} {v : Json}
    {ms : List (Field × Json)} :
    Json.nextName first s = .ok (some name, s₁) → Field.ofLabel? name = some f →
      Json.readColon s₁ = .ok s₂ → readValue s₂ = .ok (v, s₃) → GivesMembers false s₃ ms rest →
      GivesMembers first s ((f, v) :: ms) rest

/-- The items of an array give values to the fields in their order. -/
inductive GivesItems : Bool → List Field → List Char → List (Field × Json) → List Char → Prop
  | stop {first : Bool} {s : List Char} : GivesItems first [] s [] s
  | give {first : Bool} {f : Field} {fs : List Field} {s s₁ s₂ rest : List Char} {v : Json}
    {ms : List (Field × Json)} :
    Json.nextItem first s = .ok (true, s₁) → readValue s₁ = .ok (v, s₂) →
      GivesItems false fs s₂ ms rest → GivesItems first (f :: fs) s ((f, v) :: ms) rest

/-- The values that a text gives to fields. Nothing but blanks stands around the object or the
array. -/
inductive Gives : List Char → List (Field × Json) → Prop
  | object {text s rest : List Char} {ms : List (Field × Json)} :
    Json.skipSpace text = '\x7b' :: s → GivesMembers true s ms rest → Json.atEnd rest = .ok () →
      Gives text ms
  | array {text s rest after : List Char} {ms : List (Field × Json)} :
    Json.skipSpace text = '[' :: s → GivesItems true Field.all s ms rest →
      closeItems rest = .ok after → Json.atEnd after = .ok () → Gives text ms

section

variable {first : Bool} {fs : List Field} {s text rest rest' : List Char}
variable {ms ms' : List (Field × Json)}

theorem GivesMembers.unique (h : GivesMembers first s ms rest)
    (h' : GivesMembers first s ms' rest') : ms = ms' ∧ rest = rest' := by
  induction h generalizing ms' with
  | close hname =>
    cases h' with
    | close hname' =>
      cases hname.symm.trans hname'
      exact ⟨rfl, rfl⟩
    | pass hname' | give hname' => cases hname.symm.trans hname'
  | pass hname hlabel hcolon hskip _ ih =>
    cases h' with
    | close hname' => cases hname.symm.trans hname'
    | pass hname' _ hcolon' hskip' hrest' =>
      cases hname.symm.trans hname'
      cases hcolon.symm.trans hcolon'
      cases hskip.symm.trans hskip'
      exact ih hrest'
    | give hname' hlabel' =>
      cases hname.symm.trans hname'
      cases hlabel.symm.trans hlabel'
  | give hname hlabel hcolon hvalue _ ih =>
    cases h' with
    | close hname' => cases hname.symm.trans hname'
    | pass hname' hlabel' =>
      cases hname.symm.trans hname'
      cases hlabel.symm.trans hlabel'
    | give hname' hlabel' hcolon' hvalue' hrest' =>
      cases hname.symm.trans hname'
      cases hlabel.symm.trans hlabel'
      cases hcolon.symm.trans hcolon'
      cases hvalue.symm.trans hvalue'
      obtain ⟨rfl, rfl⟩ := ih hrest'
      exact ⟨rfl, rfl⟩

theorem GivesItems.unique (h : GivesItems first fs s ms rest)
    (h' : GivesItems first fs s ms' rest') : ms = ms' ∧ rest = rest' := by
  induction h generalizing ms' with
  | stop =>
    cases h'
    exact ⟨rfl, rfl⟩
  | give hnext hvalue _ ih =>
    cases h' with
    | give hnext' hvalue' hrest' =>
      cases hnext.symm.trans hnext'
      cases hvalue.symm.trans hvalue'
      obtain ⟨rfl, rfl⟩ := ih hrest'
      exact ⟨rfl, rfl⟩

/-- A text gives no values but one list of them. -/
theorem Gives.unique (h : Gives text ms) (h' : Gives text ms') : ms = ms' := by
  cases h with
  | object hopen hmembers =>
    cases h' with
    | object hopen' hmembers' =>
      cases hopen.symm.trans hopen'
      exact (hmembers.unique hmembers').1
    | array hopen' => cases hopen.symm.trans hopen'
  | array hopen hitems =>
    cases h' with
    | object hopen' => cases hopen.symm.trans hopen'
    | array hopen' hitems' =>
      cases hopen.symm.trans hopen'
      exact (hitems.unique hitems').1

end

/-! ### What is accepted -/

section

variable {d d' : Draft} {s : Settings} {text rest : List Char}

theorem has_of_knows {f : Field} (h : d.Knows s f) : d.has f = true := by
  cases f <;> exact Option.isSome_iff_exists.mpr ⟨_, h⟩

/-- Once all fields are known, each value that was given since has told of its field, and no field
was given twice or given again. -/
theorem exists_givesMembers {first : Bool} {fuel : ℕ} (hknows : ∀ f, d'.Knows s f)
    (h : readMembers first d fuel text = .ok (d', rest)) :
    ∃ ms, GivesMembers first text ms rest ∧ (∀ m ∈ ms, Tells s m.1 m.2) ∧
      (ms.map Prod.fst).Nodup ∧ (∀ f, f ∈ ms.map Prod.fst ↔ d.has f = false) ∧
      ∀ f, d.has f = true → d.Knows s f := by
  induction fuel generalizing first d text with
  | zero => cases h
  | succ fuel ih =>
    obtain ⟨⟨name?, s₁⟩, hname, h⟩ := Json.bind_eq_ok_iff.mp h
    rw [json_eq_ok_iff] at hname
    cases name? with
    | none =>
      cases h
      refine ⟨[], .close hname, by simp, List.nodup_nil, ?_, fun f _ => hknows f⟩
      intro f
      simp [has_of_knows (hknows f)]
    | some name =>
      cases hlabel : Field.ofLabel? name with
      | none =>
        simp only [hlabel] at h
        obtain ⟨s₂, hcolon, h⟩ := Json.bind_eq_ok_iff.mp h
        obtain ⟨s₃, hskip, h⟩ := Json.bind_eq_ok_iff.mp h
        rw [json_eq_ok_iff] at hcolon hskip
        obtain ⟨ms, hgives, hms⟩ := ih h
        exact ⟨ms, .pass hname hlabel hcolon hskip hgives, hms⟩
      | some f =>
        simp only [hlabel] at h
        cases hfree : d.has f with
        | true =>
          rw [hfree] at h
          cases h
        | false =>
          rw [hfree] at h
          obtain ⟨s₂, hcolon, h⟩ := Json.bind_eq_ok_iff.mp h
          obtain ⟨⟨d₁, s₃⟩, hread, h⟩ := Json.bind_eq_ok_iff.mp h
          rw [json_eq_ok_iff] at hcolon
          obtain ⟨v, s', hvalue, htells, rfl⟩ := Draft.read_eq_ok_iff.mp hread
          obtain ⟨ms, hgives, hms, hnodup, hfields, hkept⟩ := ih h
          have hf := d.has_fill s' f
          refine ⟨(f, v) :: ms, .give hname hlabel hcolon hvalue hgives, ?_, ?_, ?_, ?_⟩
          · rw [List.forall_mem_cons]
            exact ⟨Draft.tells_of_knows (hkept f hf) htells, hms⟩
          · rw [List.map_cons, List.nodup_cons, hfields, hf]
            exact ⟨Bool.noConfusion, hnodup⟩
          · intro g
            rw [List.map_cons, List.mem_cons, hfields]
            by_cases hg : g = f
            · simp [hg, hfree]
            · rw [Draft.has_fill_of_ne hg, or_iff_right hg]
          · intro g hhas
            have hg : g ≠ f := by
              rintro rfl
              rw [hfree] at hhas
              cases hhas
            rw [← Draft.knows_fill_of_ne hg]
            exact hkept g ((Draft.has_fill_of_ne hg).trans hhas)

theorem exists_givesItems {done : ℕ} {fs : List Field} (hnodup : fs.Nodup)
    (hknows : ∀ f, d'.Knows s f) (h : readItems d done fs text = .ok (d', rest)) :
    ∃ ms, GivesItems (done == 0) fs text ms rest ∧ (∀ m ∈ ms, Tells s m.1 m.2) ∧
      ms.map Prod.fst = fs ∧ ∀ f ∉ fs, d.Knows s f := by
  induction fs generalizing d done text with
  | nil =>
    cases h
    exact ⟨[], .stop, by simp, rfl, fun f _ => hknows f⟩
  | cons f fs ih =>
    rw [List.nodup_cons] at hnodup
    obtain ⟨⟨more, s₁⟩, hnext, h⟩ := Json.bind_eq_ok_iff.mp h
    rw [json_eq_ok_iff] at hnext
    cases more with
    | false => cases h
    | true =>
      obtain ⟨⟨d₁, s₂⟩, hread, h⟩ := Json.bind_eq_ok_iff.mp h
      obtain ⟨v, s', hvalue, htells, rfl⟩ := Draft.read_eq_ok_iff.mp hread
      obtain ⟨ms, hgives, hms, hfields, hkept⟩ := ih hnodup.2 h
      refine ⟨(f, v) :: ms, .give hnext hvalue hgives, ?_, by rw [List.map_cons, hfields], ?_⟩
      · rw [List.forall_mem_cons]
        exact ⟨Draft.tells_of_knows (hkept f hnodup.1) htells, hms⟩
      · intro g hg
        rw [List.mem_cons, not_or] at hg
        exact (Draft.knows_fill_of_ne hg.1).mp (hkept g hg.2)

/-- A text from which settings are read gives each field one value, and each value tells of its
field. -/
theorem exists_gives_of_read (h : read text = .ok s) :
    ∃ ms, Gives text ms ∧ (ms.map Prod.fst).Perm Field.all ∧ ∀ m ∈ ms, Tells s m.1 m.2 := by
  rw [read] at h
  split at h
  · cases h
  · next body hopen =>
    obtain ⟨⟨d, rest⟩, hmembers, h⟩ := Json.bind_eq_ok_iff.mp h
    obtain ⟨s', hfinish, h⟩ := Json.bind_eq_ok_iff.mp h
    obtain ⟨⟨⟩, hend, h⟩ := Json.bind_eq_ok_iff.mp h
    cases h
    obtain ⟨ms, hgives, hms, hnodup, hfields, -⟩ :=
      exists_givesMembers (Draft.finish_eq_ok_iff.mp hfinish) hmembers
    refine ⟨ms, .object hopen hgives (json_eq_ok_iff.mp hend), ?_, hms⟩
    rw [List.perm_ext_iff_of_nodup hnodup (by decide)]
    intro f
    rw [hfields, iff_true_right f.mem_all]
    cases f <;> rfl
  · next body hopen =>
    obtain ⟨⟨d, rest⟩, hitems, h⟩ := Json.bind_eq_ok_iff.mp h
    obtain ⟨s', hfinish, h⟩ := Json.bind_eq_ok_iff.mp h
    obtain ⟨after, hclose, h⟩ := Json.bind_eq_ok_iff.mp h
    obtain ⟨⟨⟩, hend, h⟩ := Json.bind_eq_ok_iff.mp h
    cases h
    obtain ⟨ms, hgives, hms, hfields, -⟩ :=
      exists_givesItems (by decide) (Draft.finish_eq_ok_iff.mp hfinish) hitems
    exact ⟨ms, .array hopen hgives (json_eq_ok_iff.mp hclose) (json_eq_ok_iff.mp hend),
      .of_eq hfields, hms⟩
  · exact absurd h wrongType_ne_ok

end

/-! ### What an object gives -/

variable {members : List (Field × Json)}

/-- An object gives what is read from the texts of its values. -/
theorem gives_object {g : Json → Json} (hne : members ≠ [])
    (h : ∀ m ∈ members, ReadsAs m.2 (g m.2)) :
    Gives (Json.object (members.map fun m => (m.1.label, m.2))).compact
      (members.map fun m => (m.1, g m.2)) := by
  have hmembers : GivesMembers false (members.flatMap memberText ++ ['\x7d'])
      (members.map fun m => (m.1, g m.2)) [] := by
    clear hne
    induction members with
    | nil => exact .close rfl
    | cons m members ih =>
      obtain ⟨f, v⟩ := m
      have hreads := h (f, v) List.mem_cons_self
      rw [List.flatMap_cons, List.append_assoc]
      exact .give (nextName_memberText f v _) (ofLabel?_label f) rfl
        (hreads _ (follows_members members (follows_brace [])))
        (ih fun m hm => h m (List.mem_cons_of_mem _ hm))
  obtain ⟨name, s, htext, hcompact⟩ := compact_object hne
  rw [htext] at hmembers
  have hfirst : Json.nextName true (stringText name ++ s) =
      Json.nextName false (',' :: (stringText name ++ s)) := by
    rw [Json.stringText_append]
    rfl
  rw [hcompact]
  refine .object rfl ?_ (Eq.refl (Json.atEnd []))
  generalize members.map (fun m => (m.1, g m.2)) = ms at hmembers
  cases hmembers with
  | close hname => exact .close (hfirst.trans hname)
  | pass hname => exact .pass (hfirst.trans hname) ‹_› ‹_› ‹_› ‹_›
  | give hname => exact .give (hfirst.trans hname) ‹_› ‹_› ‹_› ‹_›

end LabelFleet.Printer.Settings
