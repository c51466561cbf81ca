import LabelFleet.Database.Client
import LabelFleet.Proofs.Tables
import Mathlib.Data.List.Forall2
import Mathlib.Data.List.Nodup

/-! The two forms of a result. An array keeps all cells of its row. An object has a member for each
name of the columns that the cells reach, with the cell of the last such column. Where all names
differ and every row is as long as the list of columns, both forms describe one table, and the
arrays can be told from the objects. -/
namespace LabelFleet.Database.ResultSet

open List (Forall₂)

variable {columns : List String} {row : List Json} {object : Json.Members}

/-- The object tells of a row what the names of its columns leave: under each name stands the cell
of the last column of that name, of those columns that the cells reach. -/
structure TellsLast (columns : List String) (object : Json.Members) (row : List Json) : Prop where
  nodup : (object.map Prod.fst).Nodup
  mem_iff : ∀ name, name ∈ object.map Prod.fst ↔ ∃ j < row.length, columns[j]? = some name
  find?_iff : ∀ name cell, object.find? name = some cell ↔
    ∃ j : ℕ, columns[j]? = some name ∧ row[j]? = some cell ∧
      ∀ k, j < k → columns[k]? = some name → row.length ≤ k

/-- The object tells all of a row: its names are those of the columns, and under each stands the
cell of its column. -/
structure TellsAll (columns : List String) (object : Json.Members) (row : List Json) : Prop where
  names : (object.map Prod.fst).Perm columns
  find?_eq : ∀ (j : ℕ) (name : String), columns[j]? = some name → object.find? name = row[j]?

/-! ### One row -/

theorem find?_rowMembers {name : String} {cell : Json} :
    Json.Members.find? name (rowMembers columns row) = some cell ↔
      ∃ j : ℕ, columns[j]? = some name ∧ row[j]? = some cell ∧
        ∀ k, j < k → columns[k]? = some name → row.length ≤ k := by
  refine Table.get?_ofList_eq_some_iff.trans (exists_congr fun j => ?_)
  have hlater (k : ℕ) : (∀ w, (columns.zip row)[k]? ≠ some (name, w)) ↔
      (columns[k]? = some name → row.length ≤ k) := by
    rw [← List.getElem?_eq_none_iff, Option.eq_none_iff_forall_ne_some]
    simp only [ne_eq, List.getElem?_zip_eq_some, not_and]
    exact forall_comm
  simp only [hlater, List.getElem?_zip_eq_some, and_assoc]

theorem mem_rowMembers {name : String} : name ∈ (rowMembers columns row).map Prod.fst ↔
    ∃ j < row.length, columns[j]? = some name := by
  refine Table.mem_keys_ofList.trans ?_
  simp only [List.mem_iff_getElem?, List.getElem?_zip_eq_some]
  constructor
  · rintro ⟨cell, j, hj, hrow⟩
    exact ⟨j, (List.getElem?_eq_some_iff.mp hrow).1, hj⟩
  · rintro ⟨j, hlt, hj⟩
    exact ⟨row[j], j, hj, List.getElem?_eq_getElem hlt⟩

theorem tellsLast_rowMembers (columns : List String) (row : List Json) :
    TellsLast columns (rowMembers columns row) row where
  nodup := Table.nodup_keys _
  mem_iff _ := mem_rowMembers
  find?_iff _ _ := find?_rowMembers

theorem TellsLast.tellsAll (h : TellsLast columns object row) (hnodup : columns.Nodup)
    (hlength : row.length = columns.length) : TellsAll columns object row where
  names := by
    rw [List.perm_ext_iff_of_nodup h.nodup hnodup]
    intro name
    rw [h.mem_iff, List.mem_iff_getElem?]
    constructor
    · rintro ⟨j, -, hj⟩
      exact ⟨j, hj⟩
    · rintro ⟨j, hj⟩
      exact ⟨j, hlength ▸ (List.getElem?_eq_some_iff.mp hj).1, hj⟩
  find?_eq := by
    intro j name hj
    have hlt := (List.getElem?_eq_some_iff.mp hj).1
    rw [List.getElem?_eq_getElem (hlength ▸ hlt), h.find?_iff]
    refine ⟨j, hj, List.getElem?_eq_getElem _, ?_⟩
    intro k hk hname
    by_contra hreached
    have hne := List.nodup_iff_getElem?_ne_getElem?.mp hnodup j k hk (by omega)
    exact hne (hj.trans hname.symm)

/-! ### The rebuilt arrays -/

/-- The arrays of a table from its objects and the names of its columns. -/
def arraysOf (columns : List String) : Json → Json
  | .array objects =>
    .array (objects.map fun o => .array (columns.map fun name => (o.get? name).getD .null))
  | v => v

theorem TellsAll.row_eq (h : TellsAll columns object row) (hlength : row.length = columns.length) :
    columns.map (fun name => (object.find? name).getD .null) = row := by
  apply List.ext_getElem?
  intro j
  rw [List.getElem?_map]
  cases hj : columns[j]? with
  | none =>
    rw [List.getElem?_eq_none_iff] at hj
    exact (List.getElem?_eq_none (hlength ▸ hj)).symm
  | some name =>
    have hlt := (List.getElem?_eq_some_iff.mp hj).1
    rw [Option.map_some, h.find?_eq j name hj, List.getElem?_eq_getElem (hlength ▸ hlt)]
    rfl

theorem toObjects_eq (r : ResultSet) :
    r.toObjects = .array ((r.rows.map (rowMembers r.columns)).map .object) := by
  rw [toObjects, List.map_map]
  rfl

/-- What every row's object tells of it, the objects of a result tell row by row. -/
theorem forall₂_rowMembers {R : Json.Members → List Json → Prop} (r : ResultSet)
    (h : ∀ row ∈ r.rows, R (rowMembers r.columns row) row) :
    Forall₂ R (r.rows.map (rowMembers r.columns)) r.rows := by
  rw [List.forall₂_map_left_iff, List.forall₂_same]
  exact h

theorem arraysOf_toObjects (r : ResultSet)
    (htells : ∀ row ∈ r.rows, TellsAll r.columns (rowMembers r.columns row) row)
    (hlength : ∀ row ∈ r.rows, row.length = r.columns.length) :
    arraysOf r.columns r.toObjects = r.toArrays := by
  rw [toObjects, toArrays, arraysOf, List.map_map]
  refine congrArg Json.array (List.map_congr_left ?_)
  intro row hrow
  exact congrArg Json.array ((htells row hrow).row_eq (hlength row hrow))

/-- The arrays of a result are its rows with all their cells, and its objects are as many and come
in the same order. Each object tells what the names leave of the row beside it; if the names differ
and every row is as long as the list of them, it tells all of the row, and the arrays are those of
the objects. -/
theorem toObjects_toArrays (r : ResultSet) :
    r.toArrays = .array (r.rows.map .array) ∧
      ∃ objects : List Json.Members, r.toObjects = .array (objects.map .object) ∧
        Forall₂ (TellsLast r.columns) objects r.rows ∧
        (r.columns.Nodup → (∀ row ∈ r.rows, row.length = r.columns.length) →
          Forall₂ (TellsAll r.columns) objects r.rows ∧
            arraysOf r.columns r.toObjects = r.toArrays) := by
  have hlast (row : List Json) (_ : row ∈ r.rows) := tellsLast_rowMembers r.columns row
  refine ⟨rfl, _, r.toObjects_eq, forall₂_rowMembers r hlast, ?_⟩
  intro hnodup hlength
  have hall : ∀ row ∈ r.rows, TellsAll r.columns (rowMembers r.columns row) row :=
    fun row hrow => (hlast row hrow).tellsAll hnodup (hlength row hrow)
  exact ⟨forall₂_rowMembers r hall, r.arraysOf_toObjects hall hlength⟩

end LabelFleet.Database.ResultSet
