import LabelFleet.Markup.Interpret
import LabelFleet.Markup.PrimitiveJson
import LabelFleet.Proofs.Json.Documents
import LabelFleet.Proofs.Markup.ArgumentForms
import LabelFleet.Proofs.Markup.Marks

/-! Primitives as objects. A primitive is read back from its object, in whatever order the members
stand and whatever others stand among them. Where a number is not finite nothing is read, and there
are markups that draw such a primitive. -/
namespace LabelFleet.Markup

namespace Primitive

/-- The members of a primitive's own object. -/
def objectMembers : Primitive → Json.Members
  | text x y fontSize s =>
    [("type", .string "text"), ("x", .number x), ("y", .number y), ("fontSize", .number fontSize),
      ("text", .string s)]
  | barcode x y height .code128 =>
    [("type", .string "barcode"), ("x", .number x), ("y", .number y), ("height", .number height),
      ("symbology", .string "code128")]
  | qrCode x y size =>
    [("type", .string "qrcode"), ("x", .number x), ("y", .number y), ("size", .number size)]
  | box x y width height thickness =>
    [("type", .string "box"), ("x", .number x), ("y", .number y), ("width", .number width),
      ("height", .number height), ("thickness", .number thickness)]
  | line x y width height .horizontal =>
    [("type", .string "line"), ("x", .number x), ("y", .number y), ("width", .number width),
      ("height", .number height), ("orientation", .string "horizontal")]
  | line x y width height .vertical =>
    [("type", .string "line"), ("x", .number x), ("y", .number y), ("width", .number width),
      ("height", .number height), ("orientation", .string "vertical")]

theorem toJson_eq (p : Primitive) : p.toJson = .object p.objectMembers := by
  cases p with
  | barcode x y height symbology => cases symbology; rfl
  | line x y width height orientation => cases orientation <;> rfl
  | _ => rfl

theorem objectMembers_eq (p : Primitive) : p.objectMembers =
    ("type", .string p.kind.name) :: (memberNames p.kind).zip p.members :=
  (Json.object.inj p.toJson_eq).symm

theorem type_mem_objectMembers (p : Primitive) :
    ("type", .string p.kind.name) ∈ p.objectMembers := by
  rw [objectMembers_eq]
  exact List.mem_cons_self

/-- The numbers of a primitive. -/
def measures : Primitive → List Float
  | text x y fontSize _ => [x, y, fontSize]
  | barcode x y height _ => [x, y, height]
  | qrCode x y size => [x, y, size]
  | box x y width height thickness => [x, y, width, height, thickness]
  | line x y width height _ => [x, y, width, height]

/-- The primitive with other numbers. -/
def mapMeasures (f : Float → Float) : Primitive → Primitive
  | text x y fontSize s => text (f x) (f y) (f fontSize) s
  | barcode x y height symbology => barcode (f x) (f y) (f height) symbology
  | qrCode x y size => qrCode (f x) (f y) (f size)
  | box x y width height thickness => box (f x) (f y) (f width) (f height) (f thickness)
  | line x y width height orientation => line (f x) (f y) (f width) (f height) orientation

/-- All numbers of the primitive are finite. -/
def Finite (p : Primitive) : Prop := ∀ x ∈ p.measures, Binary64.isFinite x = true

/-- The object shows a primitive: it has the members of the object that the primitive is written as,
and others with names that are not among theirs, in any order. -/
def Shows (p : Primitive) (ms : Json.Members) : Prop :=
  ∃ own others, p.toJson = .object own ∧ ms.Perm (own ++ others) ∧
    ∀ m ∈ others, m.1 ∉ own.map Prod.fst

variable {p q : Primitive} {ms : Json.Members} {f : Float → Float} {g : Json → Json}

theorem mapMeasures_eq_self (h : ∀ x ∈ p.measures, f x = x) : p.mapMeasures f = p := by
  cases p <;> simp_all [measures, mapMeasures]

theorem shows_objectMembers (p : Primitive) : p.Shows p.objectMembers :=
  ⟨p.objectMembers, [], p.toJson_eq, by rw [List.append_nil], by simp⟩

theorem map_fst_objectMembers (p : Primitive) :
    p.objectMembers.map Prod.fst = "type" :: memberNames p.kind := by
  rw [objectMembers_eq]
  cases p <;> rfl

theorem nodup_objectMembers (p : Primitive) : (p.objectMembers.map Prod.fst).Nodup := by
  rw [map_fst_objectMembers]
  generalize p.kind = k
  cases k <;> decide

/-- The members of a primitive have no values inside theirs. -/
theorem fits_of_mem_objectMembers {m : String × Json} (h : m ∈ p.objectMembers) (depth : ℕ) :
    Json.Fits depth m.2 := by
  have hnumber (x : Float) : Json.Fits depth (.number x) := by
    rw [Json.number]
    split_ifs
    · exact .double x
    · exact .null
  have hvalue : ∀ v ∈ p.members, Json.Fits depth v := by
    cases p <;> simp [members, hnumber, Json.Fits.string]
  rw [objectMembers_eq] at h
  rcases List.mem_cons.mp h with rfl | h
  · exact .string _
  · exact hvalue _ (List.of_mem_zip h).2

/-- The object has one value for each name of the primitive. -/
theorem Shows.mem_and_forall (h : p.Shows ms) {n : String} {v : Json}
    (hv : (n, v) ∈ p.objectMembers) : (n, v) ∈ ms ∧ ∀ w, (n, w) ∈ ms → w = v := by
  obtain ⟨own, others, hown, hperm, hothers⟩ := h
  obtain rfl : p.objectMembers = own := Json.object.inj (p.toJson_eq.symm.trans hown)
  refine ⟨hperm.mem_iff.mpr (List.mem_append_left _ hv), ?_⟩
  intro w hw
  rcases List.mem_append.mp (hperm.mem_iff.mp hw) with hown | hother
  · exact congrArg Prod.snd (List.inj_on_of_nodup_map p.nodup_objectMembers hown hv rfl)
  · have hname : n ∈ p.objectMembers.map Prod.fst := List.mem_map.mpr ⟨_, hv, rfl⟩
    exact absurd hname (hothers _ hother)

theorem Shows.find?_eq (h : p.Shows ms) {m : String × Json} (hm : m ∈ p.objectMembers) :
    Json.Members.find? m.1 ms = some m.2 :=
  lookup_eq_some_of_forall (h.mem_and_forall hm).1 (h.mem_and_forall hm).2

/-- In the object that is read from a text the values are those that are read from their texts. -/
theorem Shows.find?_reread (h : p.Shows ms) {m : String × Json} (hm : m ∈ p.objectMembers) :
    Json.Members.find? m.1 (Table.ofList (Json.rereadMembers ms)).entries = some m.2.reread := by
  obtain ⟨hmem, honly⟩ := h.mem_and_forall hm
  rw [Json.rereadMembers_eq_map]
  apply Table.get?_ofList_of_forall
  · exact List.mem_map.mpr ⟨m, hmem, rfl⟩
  · intro w hw
    obtain ⟨m', hm', heq⟩ := List.mem_map.mp hw
    obtain ⟨hname, rfl⟩ := Prod.mk.inj heq
    exact congrArg Json.reread (honly m'.2 (hname ▸ hm'))

/-! ### Reading -/

theorem kind?_name (k : Kind) : kind? k.name = some k := by
  cases k <;> decide

/-- Reading looks at the primitive's own members alone. -/
theorem ofJson?_object (htype : g (.string p.kind.name) = .string p.kind.name)
    (h : ∀ m ∈ p.objectMembers, Json.Members.find? m.1 ms = some (g m.2)) :
    ofJson? (.object ms) = ofMembers? p.kind (p.members.map g) := by
  have hkind : Json.Members.find? "type" ms = some (.string p.kind.name) := by
    rw [h _ p.type_mem_objectMembers, htype]
  have hvalues : ((memberNames p.kind).mapM fun n => Json.Members.find? n ms) =
      some (p.members.map g) := by
    rw [objectMembers_eq] at h
    cases p <;>
      simp_all [members, memberNames, kind, List.zip, List.mapM_cons]
  rw [ofJson?]
  simp [hkind, Json.string?, kind?_name, hvalues]

theorem ofMembers?_eq_some (hstring : ∀ s, g (.string s) = .string s)
    (h : ∀ x ∈ p.measures, g (.number x) = .double (f x)) :
    ofMembers? p.kind (p.members.map g) = some (p.mapMeasures f) := by
  have hsymbology (s : Symbology) :
      choice? Symbology.all Symbology.name (.string s.name) = some s := by
    cases s
    decide
  have horientation (o : Orientation) :
      choice? Orientation.all Orientation.name (.string o.name) = some o := by
    cases o <;> decide
  cases p <;>
    simp_all [measures, mapMeasures, members, kind, ofMembers?, measure?, Json.string?]

/-- Each number of a primitive that has been read was told by a number. -/
theorem isSome_of_ofMembers? (h : ofMembers? p.kind (p.members.map g) = some q) :
    ∀ x ∈ p.measures, (measure? (g (.number x))).isSome = true := by
  cases p <;>
    simp only [members, kind, ofMembers?, List.map_cons, List.map_nil, Option.bind_eq_bind,
      Option.bind_eq_some_iff] at h
  case text =>
    obtain ⟨_, hx, _, hy, _, hsize, -⟩ := h
    simp [measures, hx, hy, hsize]
  case barcode =>
    obtain ⟨_, hx, _, hy, _, hheight, -⟩ := h
    simp [measures, hx, hy, hheight]
  case qrCode =>
    obtain ⟨_, hx, _, hy, _, hsize, -⟩ := h
    simp [measures, hx, hy, hsize]
  case box =>
    obtain ⟨_, hx, _, hy, _, hwidth, _, hheight, _, hthickness, -⟩ := h
    simp [measures, hx, hy, hwidth, hheight, hthickness]
  case line =>
    obtain ⟨_, hx, _, hy, _, hwidth, _, hheight, -⟩ := h
    simp [measures, hx, hy, hwidth, hheight]

/-- A number that is not finite is written as a null, and a null is no number. -/
theorem ofMembers?_eq_none (hnull : g .null = .null) (h : ¬ p.Finite) :
    ofMembers? p.kind (p.members.map g) = none := by
  rw [Finite, not_forall] at h
  obtain ⟨x, hx⟩ := h
  rw [Classical.not_imp] at hx
  rw [Option.eq_none_iff_forall_ne_some]
  intro q hq
  have hsome := isSome_of_ofMembers? hq x hx.1
  rw [Json.number, if_neg hx.2, hnull] at hsome
  contradiction

theorem kind_of_ofMembers? {k : Kind} {values : List Json} (h : ofMembers? k values = some q) :
    q.kind = k := by
  unfold ofMembers? at h
  split at h
  case h_6 => contradiction
  all_goals
    simp only [Option.bind_eq_bind, Option.bind_eq_some_iff, Option.pure_def,
      Option.some.injEq] at h
  case h_1 | h_2 =>
    obtain ⟨_, -, _, -, _, -, _, -, rfl⟩ := h
    rfl
  case h_3 =>
    obtain ⟨_, -, _, -, _, -, rfl⟩ := h
    rfl
  case h_4 | h_5 =>
    obtain ⟨_, -, _, -, _, -, _, -, _, -, rfl⟩ := h
    rfl

/-- What is read from an object is of the kind that the object names. -/
theorem find?_type_of_ofJson? (h : ofJson? (.object ms) = some q) :
    Json.Members.find? "type" ms = some (.string q.kind.name) := by
  simp only [ofJson?, Option.bind_eq_bind, Option.bind_eq_some_iff] at h
  obtain ⟨v, hfind, s, hstring, k, hk, values, -, hq⟩ := h
  have hname : k.name = s := by simpa using List.find?_some hk
  rw [kind_of_ofMembers? hq, hname, hfind]
  cases v <;> simp_all [Json.string?]

/-- A primitive is read from an object that shows it if all its numbers are finite. -/
theorem Shows.ofJson?_eq (h : p.Shows ms) (hfinite : p.Finite) :
    ofJson? (.object ms) = some p := by
  have hmembers : ∀ m ∈ p.objectMembers, Json.Members.find? m.1 ms = some (id m.2) :=
    fun _ hm => h.find?_eq hm
  rw [ofJson?_object rfl hmembers]
  have hself : p.mapMeasures id = p := mapMeasures_eq_self fun _ _ => rfl
  rw [ofMembers?_eq_some (f := id) (fun _ => rfl) fun x hx => if_pos (hfinite x hx), hself]

theorem Shows.ofJson?_eq_none (h : p.Shows ms) (hfinite : ¬ p.Finite) :
    ofJson? (.object ms) = none := by
  have hmembers : ∀ m ∈ p.objectMembers, Json.Members.find? m.1 ms = some (id m.2) :=
    fun _ hm => h.find?_eq hm
  rw [ofJson?_object rfl hmembers, ofMembers?_eq_none rfl hfinite]

/-! ### Reading from a text -/

/-- What comes back of a number from its text: a finite number, and itself if the text is short. -/
def ComesBack (x y : Float) : Prop :=
  Json.parse (Style.json.text x) = .ok (.double y) ∧ Binary64.isFinite y = true ∧
    (Json.Short x → y = x)

/-- What is read of a primitive once its text has been read: the primitive with each number as the
number's own text is read, and nothing if one of them is not finite. -/
structure ReadsBack (p : Primitive) (v : Json) : Prop where
  finite : p.Finite → ∃ f, (∀ x ∈ p.measures, ComesBack x (f x)) ∧
    ofJson? v = some (p.mapMeasures f)
  exactly : p.Finite → (∀ x ∈ p.measures, Json.parse (Style.json.text x) = .ok (.double x)) →
    ofJson? v = some p
  infinite : ¬ p.Finite → ofJson? v = none

/-- The primitive comes back from a text with each number as its own text is read. -/
theorem Shows.exists_ofJson?_reread (h : p.Shows ms) (hfinite : p.Finite) :
    ∃ f, (∀ x ∈ p.measures, ComesBack x (f x)) ∧
      ofJson? (Json.object ms).reread = some (p.mapMeasures f) := by
  have hback : ∀ x, ∃ y, x ∈ p.measures →
      ComesBack x y ∧ (Json.number x).reread = .double y := by
    intro x
    by_cases hx : x ∈ p.measures
    · have hx := hfinite x hx
      obtain ⟨y, hy, hshort, hparse, -⟩ := Json.exists_reads_double hx
      refine ⟨y, fun _ => ⟨⟨hparse, hy, hshort⟩, ?_⟩⟩
      rw [Json.number, if_pos hx, Json.reread, hparse]
      rfl
    · exact ⟨x, fun h => absurd h hx⟩
  choose f hf using hback
  refine ⟨f, fun x hx => (hf x hx).1, ?_⟩
  have hmembers := fun m hm => h.find?_reread (m := m) hm
  rw [Json.reread, ofJson?_object rfl hmembers]
  exact ofMembers?_eq_some (fun _ => rfl) fun x hx => (hf x hx).2

theorem Shows.ofJson?_reread_eq_none (h : p.Shows ms) (hfinite : ¬ p.Finite) :
    ofJson? (Json.object ms).reread = none := by
  have hmembers := fun m hm => h.find?_reread (m := m) hm
  rw [Json.reread, ofJson?_object rfl hmembers, ofMembers?_eq_none rfl hfinite]

/-- Other members do not disturb the reading from a text, as long as they are not nested too deep to
be read themselves. -/
theorem Shows.exists_readsBack (h : p.Shows ms)
    (hothers : ∀ m ∈ ms, m ∉ p.objectMembers → Json.Fits 126 m.2) :
    ∃ v, Json.parse (Json.object ms).compact = .ok v ∧ p.ReadsBack v := by
  have hfits : ∀ m ∈ ms, Json.Fits 126 m.2 := by
    intro m hm
    by_cases hown : m ∈ p.objectMembers
    · exact fits_of_mem_objectMembers hown 126
    · exact hothers m hm hown
  refine ⟨_, Json.parse_compact (.object hfits), h.exists_ofJson?_reread, ?_,
    h.ofJson?_reread_eq_none⟩
  intro hfinite hback
  obtain ⟨f, hf, hread⟩ := h.exists_ofJson?_reread hfinite
  rw [hread, mapMeasures_eq_self]
  intro x hx
  have hboth := (hf x hx).1.symm.trans (hback x hx)
  exact Json.double.inj (Except.ok.inj hboth)

end Primitive

/-! ### Numbers that are not finite -/

theorem numeral_eq_infinity {ds : List Char}
    (h : 17976931348623159 * 10 ^ 292 ≤ Digits.toNat ds) :
    Arguments.numeral ds = Binary64.infinity := by
  have hbits : Binary64.roundBits (Decimal.value ⟨Digits.toNat ds, 0⟩) = Binary64.infinityBits := by
    apply Binary64.roundBits_eq_infinityBits
    rw [Decimal.value, zpow_zero, mul_one]
    exact Nat.cast_le.mpr h
  rw [Arguments.numeral, Decimal.nearest_eq, Binary64.rounded, hbits]
  rfl

theorem toNat_nines (k : ℕ) : Digits.toNat (List.replicate k '9') + 1 = 10 ^ k := by
  induction k with
  | zero => rfl
  | succ k ih =>
    have hnine : Digits.value '9' = 9 := rfl
    rw [List.replicate_succ', Digits.toNat_concat, hnine, pow_succ]
    omega

/-- A command with a mark of its own and an argument is the only one of a markup that holds nothing
else. -/
theorem tokenize_single {d e : Char} {args : List Char} (hd : d.isAlphanum = true)
    (he : e.isAlphanum = true) (h : ∀ c ∈ args, isLeader c = false ∧ Text.isBlank c = false) :
    tokenize (String.ofList ('^' :: d :: e :: args)) = [⟨'^' :: d :: e :: args, 0⟩] := by
  have hpayload : payload args = args :=
    (payload_prefix_self args).eq_of_length_le
      ((prefix_payload_iff h).mpr (List.prefix_refl args)).length_le
  have hbody : ∀ c ∈ d :: e :: args, isLeader c = false := by
    simp only [List.forall_mem_cons]
    exact ⟨not_isLeader_of_isAlphanum hd, not_isLeader_of_isAlphanum he, fun c hc => (h c hc).1⟩
  have hrest := commandsFrom_append hbody (0 + '^'.utf8Size) []
  rw [List.append_nil] at hrest
  rw [tokenize_eq, String.toList_ofList, commandsFrom, if_pos (startsCommand_caret hd _),
    trimEnd_rawText_mark hd he, hpayload, hrest]
  rfl

/-- A barcode whose height has more than 308 nines is infinitely high. -/
theorem interpretText_nines {k : ℕ} (hk : 308 < k) :
    interpretText (String.ofList ("^BCN,".toList ++ List.replicate k '9')) =
      [.barcode 0 0 Binary64.infinity .code128] := by
  have hnines : ∀ c ∈ List.replicate k '9', c = '9' := fun c hc => List.eq_of_mem_replicate hc
  have htokens : tokenize (String.ofList ("^BCN,".toList ++ List.replicate k '9')) =
      [⟨"^BCN,".toList ++ List.replicate k '9', 0⟩] := by
    apply tokenize_single rfl rfl
    change ∀ c ∈ 'N' :: ',' :: List.replicate k '9', _
    simp only [List.forall_mem_cons]
    refine ⟨by decide, by decide, ?_⟩
    intro c hc
    rw [hnines c hc]
    decide
  have hlarge : 17976931348623159 * 10 ^ 292 ≤ Digits.toNat (List.replicate k '9') := by
    have hlt : 17976931348623159 * 10 ^ 292 < 10 ^ (17 + 292) := by
      rw [pow_add]
      exact Nat.mul_lt_mul_of_pos_right (by decide) (by positivity)
    have hle : 17 + 292 ≤ k := hk
    replace hlt := hlt.trans_le (pow_le_pow_right₀ (by decide) hle)
    rw [← toNat_nines k] at hlt
    exact Nat.le_of_lt_succ hlt
  have hheight : Arguments.upperNumber ('N' :: ',' :: List.replicate k '9') =
      some Binary64.infinity := by
    rw [Arguments.upperNumber_eq_some_iff]
    refine ⟨'N', List.replicate k '9', [], by simp, rfl, ⟨?_, ?_⟩, by rintro _ ⟨⟩,
      (numeral_eq_infinity hlarge).symm⟩
    · rw [Ne, List.replicate_eq_nil_iff]
      omega
    · intro c hc
      rw [hnines c hc]
      rfl
  rw [interpretText, htokens]
  change [barcode (.start 0.5 30) ('N' :: ',' :: List.replicate k '9')] = _
  rw [barcode, hheight]
  decide

/-- A primitive with finite numbers is read back from what it is written as and from every object
that shows it, under its kind's own name; with a number that is not finite nothing is read. The same
holds of the text, where each number comes back as its own text is read. An object is never read as
a primitive of a kind that it does not name. Markups draw primitives that are not finite: a height
of more than 308 nines does. -/
theorem Primitive.ofJson?_shows (p : Primitive) :
    (p.Finite → Primitive.ofJson? p.toJson = some p) ∧
      (¬ p.Finite → Primitive.ofJson? p.toJson = none) ∧
      (∃ v, Json.parse p.toJson.compact = .ok v ∧ p.ReadsBack v) ∧
      p.toJson = .object p.objectMembers ∧
      (∃ own, p.toJson = .object own ∧ p.Shows own ∧
        own.map Prod.fst = "type" :: memberNames p.kind ∧
        ∀ ms, p.Shows ms →
          Json.Members.find? "type" ms = some (.string p.kind.name) ∧
          (p.Finite → Primitive.ofJson? (.object ms) = some p) ∧
          (¬ p.Finite → Primitive.ofJson? (.object ms) = none) ∧
          ((∀ m ∈ ms, m ∉ own → Json.Fits 126 m.2) →
            ∃ v, Json.parse (Json.object ms).compact = .ok v ∧ p.ReadsBack v)) ∧
      (∀ ms q, Primitive.ofJson? (.object ms) = some q →
        Json.Members.find? "type" ms = some (.string q.kind.name)) ∧
      ∀ k > 308, interpretText (String.ofList ("^BCN,".toList ++ List.replicate k '9')) =
        [.barcode 0 0 Binary64.infinity .code128] ∧
          ¬ Primitive.Finite (.barcode 0 0 Binary64.infinity .code128) := by
  have hshows : p.Shows p.objectMembers := p.shows_objectMembers
  refine ⟨?_, ?_, ?_, p.toJson_eq, ⟨p.objectMembers, p.toJson_eq, hshows, p.map_fst_objectMembers, ?_⟩,
    fun ms q => find?_type_of_ofJson?, ?_⟩
  · rw [p.toJson_eq]
    exact hshows.ofJson?_eq
  · rw [p.toJson_eq]
    exact hshows.ofJson?_eq_none
  · rw [p.toJson_eq]
    exact hshows.exists_readsBack fun m hm hnot => absurd hm hnot
  · intro ms hms
    exact ⟨hms.find?_eq p.type_mem_objectMembers, hms.ofJson?_eq, hms.ofJson?_eq_none,
      hms.exists_readsBack⟩
  · intro k hk
    refine ⟨interpretText_nines hk, ?_⟩
    intro hfinite
    exact absurd (hfinite Binary64.infinity (by simp [measures])) (by decide)

end LabelFleet.Markup
