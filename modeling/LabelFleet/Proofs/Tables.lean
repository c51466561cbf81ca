import LabelFleet.Table
import Mathlib.Data.List.Induction

/-! What stands in a table: one value under each key, and the entries of a list that ascends already
just as they come. Entries can be put under different keys in any order. -/
namespace LabelFleet

variable {α : Type}

theorem lookup_cons_eq (key : String) (value : α) (es : List (String × α)) (k : String) :
    ((key, value) :: es).lookup k = if k = key then some value else es.lookup k := by
  by_cases h : k = key
  · rw [if_pos h, h, List.lookup_cons_self]
  · rw [if_neg h, List.lookup_cons, beq_eq_false_iff_ne.mpr h]

/-- The only value under a key is found. -/
theorem lookup_eq_some_of_forall {es : List (String × α)} {key : String} {value : α}
    (hmem : (key, value) ∈ es) (honly : ∀ w, (key, w) ∈ es → w = value) :
    es.lookup key = some value := by
  induction es with
  | nil => contradiction
  | cons e es ih =>
    obtain ⟨k, v⟩ := e
    rw [lookup_cons_eq]
    split_ifs with hk
    · rw [honly v (hk ▸ List.mem_cons_self)]
    · have htail : (key, value) ∈ es :=
        (List.mem_cons.mp hmem).resolve_left fun heq => hk (congrArg Prod.fst heq)
      exact ih htail fun w hw => honly w (List.mem_cons_of_mem _ hw)

theorem lookup_map_snd {β : Type} (f : α → β) (es : List (String × α)) (k : String) :
    (es.map fun e => (e.1, f e.2)).lookup k = (es.lookup k).map f := by
  induction es with
  | nil => rfl
  | cons e es ih =>
    rw [List.map_cons, lookup_cons_eq, lookup_cons_eq, ih]
    by_cases hk : k = e.1 <;> simp [hk]

theorem lookup_insertEntry (key : String) (value : α) (es : List (String × α)) (k : String) :
    (insertEntry key value es).lookup k = if k = key then some value else es.lookup k := by
  induction es with
  | nil => exact lookup_cons_eq key value [] k
  | cons d es ih =>
    obtain ⟨j, v⟩ := d
    unfold insertEntry
    by_cases hlt : key < j
    · rw [if_pos hlt, lookup_cons_eq]
    rw [if_neg hlt]
    by_cases heq : key = j
    · rw [if_pos heq, lookup_cons_eq, lookup_cons_eq, heq]
      by_cases hk : k = j <;> simp [hk]
    · rw [if_neg heq, lookup_cons_eq, lookup_cons_eq, ih]
      by_cases hk : k = j
      · simp [hk, Ne.symm heq]
      · simp [hk]

/-- The later of two values under one key stays. -/
theorem insertEntry_insertEntry_self (key : String) (a b : α) (es : List (String × α)) :
    insertEntry key a (insertEntry key b es) = insertEntry key a es := by
  induction es with
  | nil => simp [insertEntry]
  | cons d es ih =>
    obtain ⟨j, v⟩ := d
    by_cases hlt : key < j
    · simp [insertEntry, hlt]
    · by_cases heq : key = j
      · subst heq
        simp [insertEntry]
      · simp [insertEntry, hlt, heq, ih]

/-- A key stands in front of all that are greater. -/
theorem insertEntry_of_lt {j k : String} (h : j < k) (a b : α) (es : List (String × α)) :
    insertEntry j a (insertEntry k b es) = insertEntry k b (insertEntry j a es) := by
  have hne : j ≠ k := fun heq => String.lt_irrefl k (heq ▸ h)
  have hnot : ¬ k < j := String.lt_asymm h
  induction es with
  | nil => simp [insertEntry, h, hnot, Ne.symm hne]
  | cons d es ih =>
    obtain ⟨i, v⟩ := d
    by_cases hji : j < i
    · by_cases hki : k < i
      · simp [insertEntry, h, hnot, Ne.symm hne, hji, hki]
      · by_cases hkeq : k = i
        · subst hkeq
          simp [insertEntry, h, hnot, Ne.symm hne]
        · simp [insertEntry, hnot, Ne.symm hne, hji, hki, hkeq]
    · have hki : ¬ k < i := fun hlt => hji (String.lt_trans h hlt)
      by_cases hjeq : j = i
      · subst hjeq
        simp [insertEntry, hnot, Ne.symm hne]
      · by_cases hkeq : k = i
        · exact absurd (hkeq ▸ h) hji
        · simp [insertEntry, hji, hjeq, hki, hkeq, ih]

/-- Entries with different keys can be put in any order. -/
theorem insertEntry_comm {j k : String} (h : j ≠ k) (a b : α) (es : List (String × α)) :
    insertEntry j a (insertEntry k b es) = insertEntry k b (insertEntry j a es) := by
  by_cases hlt : j < k
  · exact insertEntry_of_lt hlt a b es
  · by_cases hgt : k < j
    · exact (insertEntry_of_lt hgt b a es).symm
    · exact absurd (String.le_antisymm (String.not_lt.1 hgt) (String.not_lt.1 hlt)) h

/-- A key beyond all others goes to the end. -/
theorem insertEntry_of_forall_lt {key : String} {es : List (String × α)}
    (h : ∀ e ∈ es, e.1 < key) (value : α) :
    insertEntry key value es = es ++ [(key, value)] := by
  induction es with
  | nil => rfl
  | cons d es ih =>
    have hd : d.1 < key := h d List.mem_cons_self
    have hne : key ≠ d.1 := by
      rintro rfl
      exact String.lt_irrefl _ hd
    rw [insertEntry, if_neg (String.lt_asymm hd), if_neg hne, ih fun e he => h e (.tail d he)]
    rfl

namespace Table

/-- Entries that ascend are put behind those of a table that they continue. -/
theorem entries_foldl_insert {t : Table α} {es : List (String × α)}
    (h : Ascending (t.entries ++ es)) :
    (es.foldl (fun t e => t.insert e.1 e.2) t).entries = t.entries ++ es := by
  induction es generalizing t with
  | nil => exact (List.append_nil t.entries).symm
  | cons e es ih =>
    have hlast : ∀ d ∈ t.entries, d.1 < e.1 := by
      intro d hd
      exact (List.pairwise_append.mp h).2.2 d hd e List.mem_cons_self
    have hinsert : (t.insert e.1 e.2).entries = t.entries ++ [e] :=
      insertEntry_of_forall_lt hlast e.2
    have hstep : (t.insert e.1 e.2).entries ++ es = t.entries ++ e :: es := by
      rw [hinsert, List.append_assoc, List.singleton_append]
    rw [List.foldl_cons, ih (hstep ▸ h), hstep]

/-- No entry of a list is lost or moved if its keys ascend. -/
theorem entries_ofList {es : List (String × α)} (h : Ascending es) : (ofList es).entries = es :=
  entries_foldl_insert h

theorem get?_insert (t : Table α) (key : String) (value : α) (k : String) :
    (t.insert key value).get? k = if k = key then some value else t.get? k :=
  lookup_insertEntry key value t.entries k

theorem ofList_concat (es : List (String × α)) (e : String × α) :
    ofList (es ++ [e]) = (ofList es).insert e.1 e.2 :=
  List.foldl_append

/-- Of the entries of a list with one key the last one is found. -/
theorem get?_ofList_eq_some_iff {es : List (String × α)} {key : String} {value : α} :
    (ofList es).get? key = some value ↔
      ∃ j : Nat, es[j]? = some (key, value) ∧ ∀ k, j < k → ∀ w, es[k]? ≠ some (key, w) := by
  -- Entries are put in from the front on, so the last one is put in last.
  induction es using List.reverseRecOn with
  | nil => simp [ofList, empty, get?]
  | append_singleton es e ih =>
    obtain ⟨key', value'⟩ := e
    have hget (j : Nat) : (es ++ [(key', value')])[j]? =
        if j = es.length then some (key', value') else es[j]? := by
      rcases Nat.lt_trichotomy j es.length with hlt | rfl | hgt
      · rw [List.getElem?_append_left hlt, if_neg (Nat.ne_of_lt hlt)]
      · rw [List.getElem?_concat_length, if_pos rfl]
      · rw [List.getElem?_eq_none (by simp; omega), List.getElem?_eq_none (by omega),
          if_neg (Nat.ne_of_gt hgt)]
    rw [ofList_concat, get?_insert]
    simp only [hget]
    by_cases hkey : key = key'
    · subst hkey
      rw [if_pos rfl, Option.some_inj]
      constructor
      · rintro rfl
        refine ⟨es.length, if_pos rfl, ?_⟩
        intro k hk w
        rw [if_neg (Nat.ne_of_gt hk), List.getElem?_eq_none (Nat.le_of_lt hk)]
        exact (Option.some_ne_none _).symm
      · rintro ⟨j, hj, hlast⟩
        have hend : j = es.length := by
          by_contra hne
          rw [if_neg hne] at hj
          have hlt := (List.getElem?_eq_some_iff.mp hj).1
          exact hlast es.length hlt value' (if_pos rfl)
        rw [if_pos hend] at hj
        exact congrArg Prod.snd (Option.some.inj hj)
    · have hsame (j : Nat) (w : α) :
          (if j = es.length then some (key', value') else es[j]?) = some (key, w) ↔
            es[j]? = some (key, w) := by
        split_ifs with hj
        · rw [hj, List.getElem?_eq_none (Nat.le_refl _)]
          simp [Ne.symm hkey]
        · rfl
      rw [if_neg hkey, ih]
      simp only [ne_eq, hsame]

/-- The value under a key is that of the only entry with the key. -/
theorem get?_eq_some_iff {t : Table α} {key : String} {value : α} :
    t.get? key = some value ↔ (key, value) ∈ t.entries := by
  obtain ⟨es, h⟩ := t
  change es.lookup key = some value ↔ (key, value) ∈ es
  induction es with
  | nil => simp
  | cons d es ih =>
    obtain ⟨hd, hes⟩ := List.pairwise_cons.mp h
    obtain ⟨k, v⟩ := d
    rw [List.mem_cons, Prod.mk.injEq]
    by_cases hk : key = k
    · have hnot : (key, value) ∉ es := by
        intro hmem
        exact String.lt_irrefl key (hk ▸ hd (key, value) hmem)
      rw [hk, List.lookup_cons_self, ← hk]
      simp [hnot, eq_comm]
    · rw [List.lookup_cons, beq_eq_false_iff_ne.mpr hk]
      simp [hk, ih hes]

theorem mem_keys_iff {t : Table α} {key : String} :
    key ∈ t.keys ↔ ∃ value, t.get? key = some value := by
  simp [keys, List.mem_map, get?_eq_some_iff]

/-- The keys of a list of entries, each once. -/
theorem mem_keys_ofList {es : List (String × α)} {key : String} :
    key ∈ (ofList es).keys ↔ ∃ value, (key, value) ∈ es := by
  induction es using List.reverseRecOn with
  | nil => simp [ofList, empty, keys]
  | append_singleton es e ih =>
    obtain ⟨key', value'⟩ := e
    rw [mem_keys_iff] at ih ⊢
    simp only [ofList_concat, get?_insert]
    by_cases hkey : key = key'
    · simp [hkey]
    · simp [hkey, ih]

theorem get?_ofList_of_forall {es : List (String × α)} {key : String} {value : α}
    (hmem : (key, value) ∈ es) (honly : ∀ w, (key, w) ∈ es → w = value) :
    (ofList es).get? key = some value := by
  obtain ⟨w, hw⟩ := mem_keys_iff.mp (mem_keys_ofList.mpr ⟨value, hmem⟩)
  obtain ⟨j, hj, -⟩ := get?_ofList_eq_some_iff.mp hw
  rw [hw, honly w (List.mem_of_getElem? hj)]

theorem nodup_keys (t : Table α) : t.keys.Nodup := by
  rw [keys, List.nodup_iff_pairwise_ne, List.pairwise_map]
  refine t.ascending.imp ?_
  intro a b hlt heq
  exact String.lt_irrefl b.1 (heq ▸ hlt)

theorem get?_eq_none_iff {t : Table α} {key : String} : t.get? key = none ↔ key ∉ t.keys := by
  rw [Option.eq_none_iff_forall_ne_some, keys, List.mem_map]
  simp [get?_eq_some_iff]

end Table

end LabelFleet
