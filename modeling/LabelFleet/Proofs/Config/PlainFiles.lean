import LabelFleet.Proofs.Config.Merging

/-! Files with plain keys: keys in lower case that are no paths and do not repeat. Such a file gives
a leaf just the value that stands in it. -/
namespace LabelFleet.Config

mutual

/-- The keys of the tables in a value are in lower case and do not repeat. -/
def Value.plain : Value → Bool
  | .table es => entriesPlain es
  | _ => true

def entriesPlain : Entries → Bool
  | [] => true
  | (k, v) :: es => Text.lower k == k && (es.lookup k).isNone && v.plain && entriesPlain es

end

variable {es : Entries}

theorem lookup_overlayEntries_of_plain (h : entriesPlain es) (below : Entries) (k : String) :
    (overlayEntries below es).lookup k =
      match es.lookup k with
      | some v => some (overlay (below.lookup k) v)
      | none => below.lookup k := by
  induction es generalizing below with
  | nil => rfl
  | cons e es ih =>
    obtain ⟨key, v⟩ := e
    simp only [entriesPlain, Bool.and_eq_true, beq_iff_eq, Option.isNone_iff_eq_none] at h
    obtain ⟨⟨⟨hlower, hfresh⟩, -⟩, hes⟩ := h
    rw [overlayEntries, ih hes, hlower, lookup_insertEntry, lookup_cons_eq]
    by_cases hk : k = key
    · rw [if_pos hk, if_pos hk, hk, hfresh]
    · rw [if_neg hk, if_neg hk]

theorem plain_of_lookup (h : entriesPlain es) {k : String} {v : Value} (hv : es.lookup k = some v) :
    v.plain := by
  induction es with
  | nil => cases hv
  | cons e es ih =>
    obtain ⟨key, w⟩ := e
    simp only [entriesPlain, Bool.and_eq_true] at h
    rw [lookup_cons_eq] at hv
    by_cases hk : k = key
    · rw [if_pos hk] at hv
      exact Option.some.inj hv ▸ h.1.2
    · rw [if_neg hk] at hv
      exact ih h.2 hv

theorem lookup_overlayEntries_nil (h : entriesPlain es) (k : String) :
    (overlayEntries [] es).lookup k = (es.lookup k).map (overlay none) := by
  rw [lookup_overlayEntries_of_plain h]
  cases es.lookup k <;> rfl

theorem overlay_none_eq {v : Value} (hv : ∀ es, v ≠ .table es) : overlay none v = v := by
  cases v with
  | table es => exact absurd rfl (hv es)
  | _ => rfl

/-- Laid over nothing, a value is a value of the same type. -/
theorem overlay_none_eq_iff {v x : Value} (hx : ∀ es, x ≠ .table es) :
    overlay none v = x ↔ v = x := by
  constructor
  · intro h
    cases v with
    | table es => exact absurd h.symm (hx _)
    | _ => exact h
  · rintro rfl
    exact overlay_none_eq hx

/-- A plain value lies over nothing just as it is, at every place. -/
theorem at?_overlay_none {v : Value} (h : v.plain) (names : List String) :
    (overlay none v).at? names = (v.at? names).map (overlay none) := by
  induction names generalizing v with
  | nil => rfl
  | cons name names ih =>
    cases v with
    | table es =>
      change ((overlayEntries [] es).lookup name).bind (Value.at? names) =
        ((es.lookup name).bind (Value.at? names)).map (overlay none)
      rw [lookup_overlayEntries_nil h]
      cases hlookup : es.lookup name with
      | none => rfl
      | some w => exact ih (plain_of_lookup h hlookup)
    | _ => rfl

theorem field?_overlay_none {v x : Value} (h : v.plain) (hx : ∀ es, x ≠ .table es) (index : Nat)
    (name : String) :
    (overlay none v).field? index name = some x ↔ v.field? index name = some x := by
  cases v with
  | table es =>
    change (overlayEntries [] es).lookup name = some x ↔ es.lookup name = some x
    rw [lookup_overlayEntries_nil h, Option.map_eq_some_iff]
    simp [overlay_none_eq_iff hx]
  | _ => rfl

theorem field?_overlay_none_eq_none {v : Value} (h : v.plain) {index : Nat} {name : String}
    (hnone : v.field? index name = none) : (overlay none v).field? index name = none := by
  cases v with
  | table es =>
    have hlookup : es.lookup name = none := hnone
    change (overlayEntries [] es).lookup name = none
    rw [lookup_overlayEntries_nil h, hlookup]
    rfl
  | _ => exact hnone

theorem plain_of_at? {v w : Value} (h : v.plain) {names : List String}
    (hw : v.at? names = some w) : w.plain := by
  induction names generalizing v with
  | nil => exact Option.some.inj hw ▸ h
  | cons name names ih =>
    cases v with
    | table es =>
      obtain ⟨inner, hinner, hw⟩ := Option.bind_eq_some_iff.mp hw
      exact ih (plain_of_lookup h hinner) hw
    | _ => cases hw

theorem foldl_edit_of_plain (h : entriesPlain es) (hkeys : ∀ e ∈ es, keyPath e.1 = [.name e.1])
    (below : Entries) : es.foldl edit below = overlayEntries below es := by
  induction es generalizing below with
  | nil => rfl
  | cons e es ih =>
    obtain ⟨key, v⟩ := e
    obtain ⟨hkey, hkeys⟩ := List.forall_mem_cons.mp hkeys
    simp only [entriesPlain, Bool.and_eq_true] at h
    rw [List.foldl_cons, ih h.2 hkeys, edit, hkey]
    rfl

/-- The keys of a file are plain, and at the top level none of them is a path. -/
def PlainFile (es : Entries) : Prop := entriesPlain es ∧ ∀ e ∈ es, keyPath e.1 = [.name e.1]

instance (es : Entries) : Decidable (PlainFile es) := inferInstanceAs (Decidable (_ ∧ _))

theorem at?_overlayFile_of_plain (h : PlainFile es) (names : List String) :
    (Value.table (overlayFile [] es)).at? names =
      ((Value.table es).at? names).map (overlay none) := by
  have htable : Value.table (overlayFile [] es) = overlay none (.table es) :=
    congrArg Value.table (foldl_edit_of_plain h.1 h.2 [])
  have hplain : (Value.table es).plain := h.1
  rw [htable, at?_overlay_none hplain]

namespace Leaf

variable {l : Leaf}

/-- A plain file defines for a leaf what stands in its place in the file. -/
theorem defined?_eq_some_iff_of_plain (h : PlainFile es) {x : Value}
    (hx : ∀ es, x ≠ .table es) : l.defined? es = some x ↔ l.given? es = some x := by
  rw [defined?_eq_some_iff hx, given?, given?, at?_overlayFile_of_plain h]
  cases hgroup : (Value.table es).at? l.area.path with
  | none => rfl
  | some group =>
    have hplain : group.plain := plain_of_at? (v := .table es) h.1 hgroup
    exact field?_overlay_none hplain hx l.index l.name

theorem defined?_eq_none_of_plain (h : PlainFile es) (hnone : l.given? es = none) :
    l.defined? es = none := by
  apply defined?_eq_none
  left
  rw [given?, at?_overlayFile_of_plain h]
  rw [given?] at hnone
  cases hgroup : (Value.table es).at? l.area.path with
  | none => rfl
  | some group =>
    have hplain : group.plain := plain_of_at? (v := .table es) h.1 hgroup
    rw [hgroup] at hnone
    exact field?_overlay_none_eq_none hplain hnone

end Leaf

end LabelFleet.Config
