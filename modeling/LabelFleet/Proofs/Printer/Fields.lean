import LabelFleet.Printer.Settings
import LabelFleet.Proofs.Json.Numbers
import LabelFleet.Proofs.Json.Reading
import LabelFleet.Proofs.Number.Decimals
import LabelFleet.Proofs.Text.Trimming

/-! What the values of a reply tell of the fields of the settings, and how a draft of the settings
takes them in. -/
namespace LabelFleet.Printer.Settings

theorem Field.mem_all (f : Field) : f ∈ all := by
  cases f <;> decide

/-! ### What a value tells -/

/-- The value is the number itself, or a string that holds its digits between blanks, with a plus
sign in front or without. -/
def TellsWord (n : UInt32) (v : Json) : Prop :=
  v = .natural n.toNat ∨ ∃ t number digits, v = .string t ∧ Text.Trimmed t.toList number ∧
    (number = digits ∨ number = '+' :: digits) ∧ Digits.Denotes digits n.toNat

/-- The value is the double itself, an integer to which it is the nearest double, or a string from
which it is read. -/
def TellsFloat (x : Float) : Json → Prop
  | .double y => x = y ∧ Binary64.isFinite y = true
  | .natural n => x = Decimal.nearest false ⟨n, 0⟩
  | .negative n => x = Decimal.nearest true ⟨n, 0⟩
  | .string t => Number.read (Text.trim t.toList) = .ok x
  | _ => False

/-- What a value tells of one field. -/
def Tells (s : Settings) : Field → Json → Prop
  | .name, v => v = .string s.name
  | .model, v => v = .string s.model
  | .dpi, v => TellsWord s.dpi v
  | .width, v => TellsFloat s.width v
  | .length, v => TellsFloat s.length v
  | .darkness, v => TellsWord s.darkness v
  | .speed, v => TellsWord s.speed v

theorem toWord_eq {v : Json} {number : List Char} (h : numericText v = .ok number) (n : UInt32) :
    toWord v = .ok n ↔ Digits.read (Nat.pow 2 32) number = .ok n.toNat := by
  simp only [toWord, h, bind, Except.bind]
  cases hread : Digits.read (Nat.pow 2 32) number with
  | error e => simp
  | ok m =>
    obtain ⟨-, -, -, hlt⟩ := Digits.read_eq_ok_iff.mp hread
    change Except.ok (UInt32.ofNat m) = .ok n ↔ _
    rw [Except.ok.injEq, Except.ok.injEq, ← UInt32.toNat_inj, UInt32.toNat_ofNat_of_lt' hlt]

/-- Of plain numbers only integers below the bound are taken. -/
theorem toWord_eq_ok_iff {v : Json} {n : UInt32} : toWord v = .ok n ↔ TellsWord n v := by
  have hlt : n.toNat < Nat.pow 2 32 := n.toNat_lt
  cases v with
  | string t =>
    rw [toWord_eq rfl, Digits.read_eq_ok_iff]
    simp [TellsWord, Text.trimmed_iff, hlt]
  | natural m =>
    rw [toWord_eq rfl]
    simp only [TellsWord, Json.natural.injEq, reduceCtorEq, false_and, exists_false, or_false]
    constructor
    · intro hread
      obtain ⟨ds, hm, hds, -⟩ := Digits.read_eq_ok_iff.mp hread
      rcases hm with rfl | hm
      · rw [← hds.toNat_eq, Digits.toNat_ofNat]
      · have hplus : '+' ∈ Digits.ofNat m := hm ▸ List.mem_cons_self
        exact absurd hplus (Digits.not_mem_ofNat rfl m)
    · rintro rfl
      exact Digits.read_ofNat hlt
  | negative m =>
    rw [toWord_eq rfl]
    simp only [TellsWord, reduceCtorEq, false_and, exists_false, or_false, iff_false]
    exact Digits.read_ne_ok ⟨'-', List.mem_cons_self, rfl, by decide⟩
  | double x =>
    rw [toWord_eq rfl]
    simp only [TellsWord, reduceCtorEq, false_and, exists_false, or_false, iff_false]
    exact Digits.read_ne_ok (Json.exists_mem_text x)
  | null | bool | array | object => simp [TellsWord, toWord, numericText, bind, Except.bind]

theorem toFloat_eq {v : Json} {number : List Char} (h : numericText v = .ok number) (x : Float) :
    toFloat v = .ok x ↔ Number.read number = .ok x := by
  simp only [toFloat, h, bind, Except.bind]
  cases Number.read number <;> simp [pure, Except.pure]

theorem toFloat_eq_ok_iff {v : Json} {x : Float} : toFloat v = .ok x ↔ TellsFloat x v := by
  cases v with
  | string t => exact toFloat_eq rfl x
  | natural n =>
    have hread : Number.read (Digits.ofNat n) = _ := Number.read_ofNat false n
    rw [toFloat_eq rfl, hread, Except.ok.injEq]
    exact eq_comm
  | negative n =>
    have hread : Number.read ('-' :: Digits.ofNat n) = _ := Number.read_ofNat true n
    rw [toFloat_eq rfl, hread, Except.ok.injEq]
    exact eq_comm
  | double y =>
    rw [toFloat_eq rfl, TellsFloat]
    by_cases hy : Binary64.isFinite y = true
    · rw [Number.read_text _ hy, Except.ok.injEq]
      exact ⟨fun h => ⟨h.symm, hy⟩, fun h => h.1.symm⟩
    · have hnull : Number.read "null".toList = .error .invalid := rfl
      rw [Json.text_of_not_isFinite hy, hnull]
      simp [hy]
  | null | bool | array | object => simp [TellsFloat, toFloat, numericText, bind, Except.bind]

/-! ### How a value is read -/

variable {text rest : List Char}

theorem json_eq_ok_iff {α : Type} {x : Except Json.SyntaxError α} {a : α} :
    json x = .ok a ↔ x = .ok a := by
  cases x <;> simp [json]

theorem wrongType_ne_ok {α : Type} {expected : String} {a : α} :
    wrongType expected text ≠ .ok a := by
  intro h
  have hthrow {x : Except Fault Found} :
      ¬ (do let found ← x; throw (.wrongType found expected)) = Except.ok a := by
    rw [Json.bind_eq_ok_iff]
    rintro ⟨found, -, h⟩
    contradiction
  rw [wrongType.eq_def] at h
  simp only at h
  split at h
  case h_8 => split_ifs at h <;> exact hthrow h
  all_goals exact hthrow h

/-- A field of text is read where a reader of values reads a string. -/
theorem readText_eq_ok_iff {t : String} :
    readText text = .ok (t, rest) ↔ readValue text = .ok (.string t, rest) := by
  rw [readValue, json_eq_ok_iff, Json.fuelFor, Json.readValue_eq_string_iff, readText]
  split
  · next heq => simp [heq]
  · next s heq => simp [heq, json_eq_ok_iff]
  · next hquote =>
    constructor
    · exact fun h => absurd h wrongType_ne_ok
    · rintro ⟨s, heq, -⟩
      exact absurd heq (hquote s)

/-! ### Drafts -/

namespace Draft

variable {d d' : Draft} {s : Settings} {f g : Field}

/-- The draft with one field of the settings filled in. -/
def fill (d : Draft) (s : Settings) : Field → Draft
  | .name => { d with name := some s.name }
  | .model => { d with model := some s.model }
  | .dpi => { d with dpi := some s.dpi }
  | .width => { d with width := some s.width }
  | .length => { d with length := some s.length }
  | .darkness => { d with darkness := some s.darkness }
  | .speed => { d with speed := some s.speed }

def fillAll (d : Draft) (s : Settings) (fs : List Field) : Draft :=
  fs.foldl (fun d f => d.fill s f) d

/-- The draft holds one field of the settings. -/
def Knows (d : Draft) (s : Settings) : Field → Prop
  | .name => d.name = some s.name
  | .model => d.model = some s.model
  | .dpi => d.dpi = some s.dpi
  | .width => d.width = some s.width
  | .length => d.length = some s.length
  | .darkness => d.darkness = some s.darkness
  | .speed => d.speed = some s.speed

theorem knows_fill (d : Draft) (s : Settings) (f : Field) : (d.fill s f).Knows s f := by
  cases f <;> rfl

theorem has_fill (d : Draft) (s : Settings) (f : Field) : (d.fill s f).has f = true := by
  cases f <;> rfl

theorem has_fill_of_ne (h : g ≠ f) : (d.fill s f).has g = d.has g := by
  cases f <;> cases g <;> first | rfl | contradiction

theorem knows_fill_of_ne {s' : Settings} (h : g ≠ f) :
    (d.fill s' f).Knows s g ↔ d.Knows s g := by
  cases f <;> cases g <;> first | rfl | contradiction

theorem knows_fillAll {fs : List Field} (h : g ∈ fs ∨ d.Knows s g) :
    (d.fillAll s fs).Knows s g := by
  induction fs generalizing d with
  | nil => exact h.resolve_left List.not_mem_nil
  | cons f fs ih =>
    apply ih
    by_cases hg : g = f
    · exact .inr (hg ▸ d.knows_fill s f)
    · rw [List.mem_cons, or_iff_right hg] at h
      rwa [knows_fill_of_ne hg]

/-- What a filled draft knows is what the value told. -/
theorem tells_of_knows {s' : Settings} {v : Json} (h : (d.fill s' f).Knows s f)
    (htells : Tells s' f v) : Tells s f v := by
  cases f with
  | name | model | dpi | width | length | darkness | speed =>
    have hfield := Option.some.inj h
    simp only [Tells, hfield] at htells ⊢
    exact htells

theorem need_eq_ok_iff {α : Type} {o : Option α} {a : α} : need f o = .ok a ↔ o = some a := by
  cases o <;> simp [need]

theorem finish_eq_ok_iff : d.finish = .ok s ↔ ∀ f, d.Knows s f := by
  simp only [finish, Json.bind_eq_ok_iff, need_eq_ok_iff]
  constructor
  · rintro ⟨name, hname, model, hmodel, dpi, hdpi, width, hwidth, length, hlength, darkness,
      hdarkness, speed, hspeed, h⟩ f
    cases h
    cases f <;> assumption
  · intro h
    exact ⟨_, h .name, _, h .model, _, h .dpi, _, h .width, _, h .length, _, h .darkness, _,
      h .speed, rfl⟩

theorem take_eq_ok_iff {α : Type} {convert : Json → Except Fault α} {set : α → Draft} :
    (do let (v, s) ← readValue text; return (set (← convert v), s)) = .ok (d', rest) ↔
      ∃ v a, readValue text = .ok (v, rest) ∧ convert v = .ok a ∧ d' = set a := by
  rw [Json.bind_eq_ok_iff]
  constructor
  · rintro ⟨⟨v, rest'⟩, hv, h⟩
    obtain ⟨a, ha, h⟩ := Json.bind_eq_ok_iff.mp h
    cases h
    exact ⟨v, a, hv, ha, rfl⟩
  · rintro ⟨v, a, hv, ha, rfl⟩
    exact ⟨(v, rest), hv, Json.bind_eq_ok_iff.mpr ⟨a, ha, rfl⟩⟩

/-- A field is read from a value that tells of it. -/
theorem read_eq_ok_iff : d.read f text = .ok (d', rest) ↔
    ∃ v s, readValue text = .ok (v, rest) ∧ Tells s f v ∧ d' = d.fill s f := by
  -- Settings of which one field is looked at.
  let blank : Settings := ⟨"", "", 0, 0, 0, 0, 0⟩
  constructor
  · intro h
    cases f with
    | name =>
      obtain ⟨⟨t, rest'⟩, ht, h⟩ := Json.bind_eq_ok_iff.mp h
      cases h
      exact ⟨_, { blank with name := t }, readText_eq_ok_iff.mp ht, rfl, rfl⟩
    | model =>
      obtain ⟨⟨t, rest'⟩, ht, h⟩ := Json.bind_eq_ok_iff.mp h
      cases h
      exact ⟨_, { blank with model := t }, readText_eq_ok_iff.mp ht, rfl, rfl⟩
    | dpi =>
      obtain ⟨v, n, hv, hn, hd⟩ := take_eq_ok_iff.mp h
      exact ⟨v, { blank with dpi := n }, hv, toWord_eq_ok_iff.mp hn, hd⟩
    | width =>
      obtain ⟨v, x, hv, hx, hd⟩ := take_eq_ok_iff.mp h
      exact ⟨v, { blank with width := x }, hv, toFloat_eq_ok_iff.mp hx, hd⟩
    | length =>
      obtain ⟨v, x, hv, hx, hd⟩ := take_eq_ok_iff.mp h
      exact ⟨v, { blank with length := x }, hv, toFloat_eq_ok_iff.mp hx, hd⟩
    | darkness =>
      obtain ⟨v, n, hv, hn, hd⟩ := take_eq_ok_iff.mp h
      exact ⟨v, { blank with darkness := n }, hv, toWord_eq_ok_iff.mp hn, hd⟩
    | speed =>
      obtain ⟨v, n, hv, hn, hd⟩ := take_eq_ok_iff.mp h
      exact ⟨v, { blank with speed := n }, hv, toWord_eq_ok_iff.mp hn, hd⟩
  · rintro ⟨v, s, hv, htells, rfl⟩
    cases f with
    | name | model =>
      cases htells
      exact Json.bind_eq_ok_iff.mpr ⟨(_, rest), readText_eq_ok_iff.mpr hv, rfl⟩
    | dpi | darkness | speed =>
      exact take_eq_ok_iff.mpr ⟨v, _, hv, toWord_eq_ok_iff.mpr htells, rfl⟩
    | width | length =>
      exact take_eq_ok_iff.mpr ⟨v, _, hv, toFloat_eq_ok_iff.mpr htells, rfl⟩

end Draft

end LabelFleet.Printer.Settings
