/-! Tables with text keys. The entries are in ascending order of their keys, so a key occurs once,
and two tables with the same entries are equal. -/
namespace LabelFleet

/-- Puts an entry into a list that is in ascending order; an entry with the same key is replaced. -/
def insertEntry {α : Type} (key : String) (value : α) : List (String × α) → List (String × α)
  | [] => [(key, value)]
  | (k, v) :: rest =>
    if key < k then (key, value) :: (k, v) :: rest
    else if key = k then (key, value) :: rest
    else (k, v) :: insertEntry key value rest

/-- The keys ascend. -/
abbrev Ascending {α : Type} (es : List (String × α)) : Prop := es.Pairwise fun a b => a.1 < b.1

theorem mem_insertEntry {α : Type} {key : String} {value : α} {es : List (String × α)}
    {e : String × α} (h : e ∈ insertEntry key value es) : e = (key, value) ∨ e ∈ es := by
  induction es with
  | nil => simpa [insertEntry] using h
  | cons d es ih =>
    unfold insertEntry at h
    split at h
    · simpa using h
    · split at h
      · simp only [List.mem_cons] at h ⊢
        exact h.imp_right .inr
      · simp only [List.mem_cons] at h ⊢
        rcases h with h | h
        · exact .inr (.inl h)
        · exact (ih h).imp_right .inr

theorem ascending_insertEntry {α : Type} {es : List (String × α)} (h : Ascending es)
    (key : String) (value : α) : Ascending (insertEntry key value es) := by
  induction es with
  | nil => simp [insertEntry, Ascending]
  | cons d es ih =>
    obtain ⟨hd, hes⟩ := List.pairwise_cons.1 h
    unfold insertEntry
    split
    next hlt =>
      refine List.pairwise_cons.2 ⟨?_, h⟩
      intro e he
      rcases List.mem_cons.1 he with rfl | he
      · exact hlt
      · exact String.lt_trans hlt (hd e he)
    next hnlt =>
      split
      next heq => exact List.pairwise_cons.2 ⟨fun e he => heq ▸ hd e he, hes⟩
      next hne =>
        refine List.pairwise_cons.2 ⟨?_, ih hes⟩
        intro e he
        rcases mem_insertEntry he with rfl | he
        · by_cases hlt : d.1 < key
          · exact hlt
          · exact absurd (String.le_antisymm (String.not_lt.1 hlt) (String.not_lt.1 hnlt)) hne
        · exact hd e he

structure Table (α : Type) where
  entries : List (String × α)
  ascending : Ascending entries

namespace Table

variable {α β : Type}

def empty : Table α := ⟨[], .nil⟩

def insert (t : Table α) (key : String) (value : α) : Table α :=
  ⟨insertEntry key value t.entries, ascending_insertEntry t.ascending key value⟩

/-- Of entries with one key the last one counts. -/
def ofList (es : List (String × α)) : Table α := es.foldl (fun t e => t.insert e.1 e.2) empty

def get? (t : Table α) (key : String) : Option α := t.entries.lookup key

def keys (t : Table α) : List String := t.entries.map Prod.fst

def size (t : Table α) : Nat := t.entries.length

def map (f : α → β) (t : Table α) : Table β :=
  ⟨t.entries.map fun e => (e.1, f e.2), List.pairwise_map.2 t.ascending⟩

end Table

end LabelFleet
