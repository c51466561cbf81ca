import LabelFleet.Config.Load
import LabelFleet.Proofs.Tables
import Mathlib.Tactic.Common

/-! The leaves of a configuration: the fields of its database, of each printer and of its time
limits. A configuration is made of layers only if each of its leaves is the conversion of the value
that stands in its place. -/
namespace LabelFleet

/-- The value that a path of names leads to. -/
def Json.at? : List String → Json → Option Json
  | [], v => some v
  | name :: names, v => (v.get? name).bind (Json.at? names)

theorem Json.at?_concat (names : List String) (name : String) (v : Json) :
    v.at? (names ++ [name]) = (v.at? names).bind (Json.get? name) := by
  induction names generalizing v with
  | nil =>
    change (v.get? name).bind some = v.get? name
    exact Option.bind_fun_some _
  | cons first names ih =>
    change (v.get? first).bind (Json.at? (names ++ [name])) = _
    rw [funext ih, Json.at?, Option.bind_assoc]

theorem Json.get?_ofTable {α : Type} (encode : α → Json) (t : Table α) (key : String) :
    (Json.ofTable encode t).get? key = (t.get? key).map encode :=
  lookup_map_snd encode t.entries key

namespace Config

/-- The value that a path of names leads to, from table to table. -/
def Value.at? : List String → Value → Option Value
  | [], v => some v
  | name :: names, v => (v.entries.lookup name).bind (Value.at? names)

/-- The value of a field in a group, which is a table or a list. -/
def Value.field? (index : Nat) (name : String) : Value → Option Value
  | .table es => es.lookup name
  | .list vs => vs[index]?
  | _ => none

/-! ### Leaves -/

inductive Kind
  | text
  | port
  | word
  | long
deriving DecidableEq, Repr

/-- The conversion to the type of a field, as it is printed. -/
def Kind.convert : Kind → Value → Load Json
  | text, v => (toText v).map .string
  | port, v => (toPort v).map fun n => .natural n.toNat
  | word, v => (toWord v).map fun n => .natural n.toNat
  | long, v => (toLong v).map fun n => .natural n.toNat

/-- A table is no value of a leaf. -/
theorem Kind.ne_table_of_convert {k : Kind} {x : Value} {j : Json} (h : k.convert x = .ok j)
    (es : Entries) : x ≠ .table es := by
  rintro rfl
  cases k <;> cases h

/-- A group of fields. -/
inductive Area
  | database
  | printer (id : String)
  | timeouts
deriving DecidableEq, Repr

namespace Area

def path : Area → List String
  | database => ["database"]
  | printer id => ["printers", id]
  | timeouts => ["timeouts"]

def isPrinter : Area → Bool
  | printer _ => true
  | _ => false

/-- The fields in their order. -/
def fields : Area → List (String × Kind)
  | database => [("host", .text), ("port", .port), ("user", .text), ("password", .text),
      ("name", .text), ("alias", .text), ("max_connections", .word), ("idle_timeout_secs", .long)]
  | printer _ => [("host", .text), ("port", .port), ("name", .text), ("model", .text)]
  | timeouts => [("preflight", .long), ("live", .long), ("detailed", .long), ("report", .long),
      ("full", .long), ("printer_test", .long), ("test_print", .long), ("command", .long),
      ("database", .long)]

end Area

/-- A field of a configuration. -/
structure Leaf where
  area : Area
  index : Nat
  name : String
  kind : Kind
  mem : area.fields[index]? = some (name, kind)

namespace Leaf

def path (l : Leaf) : List String := l.area.path ++ [l.name]

/-- The value that a layer gives for a leaf. A list gives the fields of a group in their order. -/
def given? (l : Leaf) (layer : Entries) : Option Value :=
  ((Value.table layer).at? l.area.path).bind (Value.field? l.index l.name)

end Leaf

/-! ### Conversions -/

theorem exists_of_bind_eq_ok {α β : Type} {x : Load α} {f : α → Load β} {b : β}
    (h : x >>= f = .ok b) : ∃ a, x = .ok a ∧ f a = .ok b := by
  cases x with
  | error e => cases h
  | ok a => exact ⟨a, rfl, h⟩

theorem eq_ok_of_inside {α : Type} {key : String} {x : Load α} {a : α} (h : inside key x = .ok a) :
    x = .ok a := by
  cases x with
  | error e => cases h
  | ok b => exact h

namespace Group

variable {α : Type} {g : Group} {index : Nat} {name expected : String} {v : Value}
  {convert : Value → Load α} {a : α}

theorem eq_some_of_need {o : Option α} (h : g.need index name expected o = .ok a) : o = some a := by
  cases o with
  | some b => exact congrArg some (Except.ok.inj h)
  | none =>
    cases g with
    | named es => cases h
    | listed vs => cases h

/-- A field that is there has been converted. -/
theorem exists_of_read (hg : ofValue expected v = .ok g)
    (h : g.read index name convert = .ok (some a)) :
    ∃ x, v.field? index name = some x ∧ convert x = .ok a := by
  have hfound (key : String) (x : Value)
      (hx : (inside key (convert x)).map some = .ok (some a)) : convert x = .ok a := by
    cases hconvert : convert x with
    | error e =>
      rw [hconvert] at hx
      cases hx
    | ok b =>
      rw [hconvert] at hx
      exact congrArg Except.ok (Option.some.inj (Except.ok.inj hx))
  cases v with
  | table es =>
    cases hg
    cases hlookup : es.lookup name with
    | none => simp [read, hlookup] at h
    | some x =>
      simp only [read, hlookup] at h
      exact ⟨x, hlookup, hfound _ x h⟩
  | list vs =>
    cases hg
    cases hitem : vs[index]? with
    | none => simp [read, hitem] at h
    | some x =>
      simp only [read, hitem] at h
      exact ⟨x, hitem, hfound _ x h⟩
  | _ => cases hg

end Group

/-- The field has a value in the group, and this is what it is converted to. -/
def Reads (v : Value) (index : Nat) (name : String) (kind : Kind) (j : Json) : Prop :=
  ∃ x, v.field? index name = some x ∧ kind.convert x = .ok j

theorem reads_of_need {α : Type} {v : Value} {g : Group} {index : Nat}
    {name expected expected' : String} {kind : Kind} {convert : Value → Load α} {print : α → Json}
    {o : Option α} {a : α} (hkind : ∀ x, kind.convert x = (convert x).map print)
    (hg : Group.ofValue expected v = .ok g) (hread : g.read index name convert = .ok o)
    (hneed : g.need index name expected' o = .ok a) : Reads v index name kind (print a) := by
  obtain rfl := Group.eq_some_of_need hneed
  obtain ⟨x, hx, hconvert⟩ := Group.exists_of_read hg hread
  exact ⟨x, hx, by rw [hkind, hconvert]; rfl⟩

theorem reads_of_database {v : Value} {d : Database} (h : Database.ofValue v = .ok d) {index : Nat}
    {name : String} {kind : Kind} (hmem : Area.database.fields[index]? = some (name, kind)) :
    ∃ j, Reads v index name kind j ∧ d.toJson.get? name = some j := by
  rw [Database.ofValue] at h
  obtain ⟨g, hg, h⟩ := exists_of_bind_eq_ok h
  obtain ⟨host, hhost, h⟩ := exists_of_bind_eq_ok h
  obtain ⟨port, hport, h⟩ := exists_of_bind_eq_ok h
  obtain ⟨user, huser, h⟩ := exists_of_bind_eq_ok h
  obtain ⟨password, hpassword, h⟩ := exists_of_bind_eq_ok h
  obtain ⟨databaseName, hdatabaseName, h⟩ := exists_of_bind_eq_ok h
  obtain ⟨nickname, hnickname, h⟩ := exists_of_bind_eq_ok h
  obtain ⟨connections, hconnections, h⟩ := exists_of_bind_eq_ok h
  obtain ⟨idle, hidle, h⟩ := exists_of_bind_eq_ok h
  obtain ⟨_, hhost', h⟩ := exists_of_bind_eq_ok h
  obtain ⟨_, hport', h⟩ := exists_of_bind_eq_ok h
  obtain ⟨_, huser', h⟩ := exists_of_bind_eq_ok h
  obtain ⟨_, hpassword', h⟩ := exists_of_bind_eq_ok h
  obtain ⟨_, hdatabaseName', h⟩ := exists_of_bind_eq_ok h
  obtain ⟨_, hnickname', h⟩ := exists_of_bind_eq_ok h
  obtain ⟨_, hconnections', h⟩ := exists_of_bind_eq_ok h
  obtain ⟨_, hidle', h⟩ := exists_of_bind_eq_ok h
  cases h
  match index, hmem with
  | 0, rfl => exact ⟨_, reads_of_need (fun _ => rfl) hg hhost hhost', rfl⟩
  | 1, rfl => exact ⟨_, reads_of_need (fun _ => rfl) hg hport hport', rfl⟩
  | 2, rfl => exact ⟨_, reads_of_need (fun _ => rfl) hg huser huser', rfl⟩
  | 3, rfl => exact ⟨_, reads_of_need (fun _ => rfl) hg hpassword hpassword', rfl⟩
  | 4, rfl => exact ⟨_, reads_of_need (fun _ => rfl) hg hdatabaseName hdatabaseName', rfl⟩
  | 5, rfl => exact ⟨_, reads_of_need (fun _ => rfl) hg hnickname hnickname', rfl⟩
  | 6, rfl => exact ⟨_, reads_of_need (fun _ => rfl) hg hconnections hconnections', rfl⟩
  | 7, rfl => exact ⟨_, reads_of_need (fun _ => rfl) hg hidle hidle', rfl⟩

theorem reads_of_printer {v : Value} {p : Printer} (h : Printer.ofValue v = .ok p) {id : String}
    {index : Nat} {name : String} {kind : Kind}
    (hmem : (Area.printer id).fields[index]? = some (name, kind)) :
    ∃ j, Reads v index name kind j ∧ p.toJson.get? name = some j := by
  rw [Printer.ofValue] at h
  obtain ⟨g, hg, h⟩ := exists_of_bind_eq_ok h
  obtain ⟨host, hhost, h⟩ := exists_of_bind_eq_ok h
  obtain ⟨port, hport, h⟩ := exists_of_bind_eq_ok h
  obtain ⟨printerName, hprinterName, h⟩ := exists_of_bind_eq_ok h
  obtain ⟨model, hmodel, h⟩ := exists_of_bind_eq_ok h
  obtain ⟨_, hhost', h⟩ := exists_of_bind_eq_ok h
  obtain ⟨_, hport', h⟩ := exists_of_bind_eq_ok h
  obtain ⟨_, hprinterName', h⟩ := exists_of_bind_eq_ok h
  obtain ⟨_, hmodel', h⟩ := exists_of_bind_eq_ok h
  cases h
  match index, hmem with
  | 0, rfl => exact ⟨_, reads_of_need (fun _ => rfl) hg hhost hhost', rfl⟩
  | 1, rfl => exact ⟨_, reads_of_need (fun _ => rfl) hg hport hport', rfl⟩
  | 2, rfl => exact ⟨_, reads_of_need (fun _ => rfl) hg hprinterName hprinterName', rfl⟩
  | 3, rfl => exact ⟨_, reads_of_need (fun _ => rfl) hg hmodel hmodel', rfl⟩

theorem reads_of_timeouts {v : Value} {t : Timeouts} (h : Timeouts.ofValue v = .ok t) {index : Nat}
    {name : String} {kind : Kind} (hmem : Area.timeouts.fields[index]? = some (name, kind)) :
    ∃ j, Reads v index name kind j ∧ t.toJson.get? name = some j := by
  rw [Timeouts.ofValue] at h
  obtain ⟨g, hg, h⟩ := exists_of_bind_eq_ok h
  obtain ⟨preflight, hpreflight, h⟩ := exists_of_bind_eq_ok h
  obtain ⟨live, hlive, h⟩ := exists_of_bind_eq_ok h
  obtain ⟨detailed, hdetailed, h⟩ := exists_of_bind_eq_ok h
  obtain ⟨report, hreport, h⟩ := exists_of_bind_eq_ok h
  obtain ⟨full, hfull, h⟩ := exists_of_bind_eq_ok h
  obtain ⟨printerTest, hprinterTest, h⟩ := exists_of_bind_eq_ok h
  obtain ⟨testPrint, htestPrint, h⟩ := exists_of_bind_eq_ok h
  obtain ⟨command, hcommand, h⟩ := exists_of_bind_eq_ok h
  obtain ⟨database, hdatabase, h⟩ := exists_of_bind_eq_ok h
  obtain ⟨_, hpreflight', h⟩ := exists_of_bind_eq_ok h
  obtain ⟨_, hlive', h⟩ := exists_of_bind_eq_ok h
  obtain ⟨_, hdetailed', h⟩ := exists_of_bind_eq_ok h
  obtain ⟨_, hreport', h⟩ := exists_of_bind_eq_ok h
  obtain ⟨_, hfull', h⟩ := exists_of_bind_eq_ok h
  obtain ⟨_, hprinterTest', h⟩ := exists_of_bind_eq_ok h
  obtain ⟨_, htestPrint', h⟩ := exists_of_bind_eq_ok h
  obtain ⟨_, hcommand', h⟩ := exists_of_bind_eq_ok h
  obtain ⟨_, hdatabase', h⟩ := exists_of_bind_eq_ok h
  cases h
  match index, hmem with
  | 0, rfl => exact ⟨_, reads_of_need (fun _ => rfl) hg hpreflight hpreflight', rfl⟩
  | 1, rfl => exact ⟨_, reads_of_need (fun _ => rfl) hg hlive hlive', rfl⟩
  | 2, rfl => exact ⟨_, reads_of_need (fun _ => rfl) hg hdetailed hdetailed', rfl⟩
  | 3, rfl => exact ⟨_, reads_of_need (fun _ => rfl) hg hreport hreport', rfl⟩
  | 4, rfl => exact ⟨_, reads_of_need (fun _ => rfl) hg hfull hfull', rfl⟩
  | 5, rfl => exact ⟨_, reads_of_need (fun _ => rfl) hg hprinterTest hprinterTest', rfl⟩
  | 6, rfl => exact ⟨_, reads_of_need (fun _ => rfl) hg htestPrint htestPrint', rfl⟩
  | 7, rfl => exact ⟨_, reads_of_need (fun _ => rfl) hg hcommand hcommand', rfl⟩
  | 8, rfl => exact ⟨_, reads_of_need (fun _ => rfl) hg hdatabase hdatabase', rfl⟩

/-- There is a printer for each entry, made of that entry. -/
theorem get?_of_printersOf {es : Entries} {t : Table Printer} (h : printersOf es = .ok t)
    (id : String) :
    es.lookup id = none ∧ t.get? id = none ∨
      ∃ v p, es.lookup id = some v ∧ t.get? id = some p ∧ Printer.ofValue v = .ok p := by
  induction es generalizing t with
  | nil =>
    cases h
    exact .inl ⟨rfl, rfl⟩
  | cons e es ih =>
    obtain ⟨key, v⟩ := e
    rw [printersOf] at h
    obtain ⟨p, hp, h⟩ := exists_of_bind_eq_ok h
    obtain ⟨rest, hrest, h⟩ := exists_of_bind_eq_ok h
    cases h
    rw [lookup_cons_eq, Table.get?, Table.insert, lookup_insertEntry]
    by_cases hid : id = key
    · rw [if_pos hid, if_pos hid]
      exact .inr ⟨v, p, rfl, rfl, eq_ok_of_inside hp⟩
    · rw [if_neg hid, if_neg hid]
      exact ih hrest

/-- The leaf is given, and has been converted. -/
def Leaf.Converted (l : Leaf) (layer : Entries) (c : Config) : Prop :=
  ∃ x j, l.given? layer = some x ∧ l.kind.convert x = .ok j ∧ c.toJson.at? l.path = some j

theorem Leaf.converted_of_reads {l : Leaf} {es : Entries} {c : Config} {v : Value} {group : Json}
    (hv : (Value.table es).at? l.area.path = some v)
    (hgroup : c.toJson.at? l.area.path = some group)
    (h : ∃ j, Reads v l.index l.name l.kind j ∧ group.get? l.name = some j) :
    l.Converted es c := by
  obtain ⟨j, ⟨x, hx, hconvert⟩, hj⟩ := h
  refine ⟨x, j, ?_, hconvert, ?_⟩
  · rw [given?, hv]
    exact hx
  · rw [path, Json.at?_concat, hgroup]
    exact hj

/-- A configuration that is made of layers has the leaves that they give. Only of a printer that
they do not give it has none. -/
theorem leaf_of_ofEntries {es : Entries} {c : Config} (h : ofEntries es = .ok c) (l : Leaf) :
    (l.area.isPrinter ∧ (Value.table es).at? l.area.path = none ∧ c.toJson.at? l.path = none) ∨
      l.Converted es c := by
  rw [ofEntries] at h
  obtain ⟨database, hdatabase, h⟩ := exists_of_bind_eq_ok h
  obtain ⟨printers, hprinters, h⟩ := exists_of_bind_eq_ok h
  obtain ⟨timeouts, htimeouts, h⟩ := exists_of_bind_eq_ok h
  obtain ⟨database', hdatabase', h⟩ := exists_of_bind_eq_ok h
  obtain ⟨printers', hprinters', h⟩ := exists_of_bind_eq_ok h
  obtain ⟨timeouts', htimeouts', h⟩ := exists_of_bind_eq_ok h
  cases h
  obtain rfl := Group.eq_some_of_need hdatabase'
  obtain rfl := Group.eq_some_of_need hprinters'
  obtain rfl := Group.eq_some_of_need htimeouts'
  have hgroup : Group.ofValue "" (.table es) = .ok (.named es) := rfl
  obtain ⟨d, hd, hofd⟩ := Group.exists_of_read hgroup hdatabase
  obtain ⟨ps, hps, hofps⟩ := Group.exists_of_read hgroup hprinters
  obtain ⟨t, ht, hoft⟩ := Group.exists_of_read hgroup htimeouts
  obtain ⟨area, index, name, kind, hmem⟩ := l
  cases area with
  | database =>
    have hat : (Value.table es).at? ["database"] = some d := (Option.bind_fun_some _).trans hd
    exact .inr (Leaf.converted_of_reads hat rfl (reads_of_database hofd hmem))
  | timeouts =>
    have hat : (Value.table es).at? ["timeouts"] = some t := (Option.bind_fun_some _).trans ht
    exact .inr (Leaf.converted_of_reads hat rfl (reads_of_timeouts hoft hmem))
  | printer id =>
    cases ps with
    | table entries =>
      have hat : (Value.table es).at? ["printers", id] = entries.lookup id := by
        change (es.lookup "printers").bind (Value.at? [id]) = _
        have hprinters : es.lookup "printers" = some (.table entries) := hps
        rw [hprinters]
        exact Option.bind_fun_some _
      have hjson : (Config.mk database' printers' timeouts').toJson.at? ["printers", id] =
          (printers'.get? id).map Printer.toJson :=
        (Option.bind_fun_some _).trans (Json.get?_ofTable Printer.toJson printers' id)
      rcases get?_of_printersOf hofps id with ⟨hnone, hprinter⟩ | ⟨v, p, hv, hp, hofp⟩
      · left
        refine ⟨rfl, hat.trans hnone, ?_⟩
        rw [Leaf.path, Json.at?_concat, Area.path, hjson, hprinter]
        rfl
      · right
        refine Leaf.converted_of_reads (hat.trans hv) ?_ (reads_of_printer hofp hmem)
        rw [Area.path, hjson, hp]
        rfl
    | _ => cases hofps

end Config

end LabelFleet
