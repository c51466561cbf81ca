import LabelFleet.Config.Basic
import LabelFleet.Config.Path
import LabelFleet.Config.Value
import LabelFleet.Table
import LabelFleet.Text.Lower

/-! Layers of configuration. A later layer is laid over an earlier one table by table: it replaces
the values that it gives and leaves all others. Keys are compared in lower case. -/
namespace LabelFleet.Config

mutual

/-- The value that results from laying a value over what is there. A table that says nothing leaves
even a value of another type. -/
def overlay (below : Option Value) : Value → Value
  | .table es =>
    match below with
    | none => .table (overlayEntries [] es)
    | some (.table bs) => .table (overlayEntries bs es)
    | some v => if es.isEmpty then v else .table (overlayEntries [] es)
  | v => v

/-- The entries that result from laying entries over others. -/
def overlayEntries (below : Entries) : Entries → Entries
  | [] => below
  | (k, v) :: es =>
    let key := Text.lower k
    overlayEntries (insertEntry key (overlay (below.lookup key) v) below) es

end

/-- Changes the item of a list at an index. The list grows to hold it, at the end for an index that
counts from the start and at the start for one that counts from the end. -/
def changeItem (f : Value → Value) (i : Int) (vs : List Value) : List Value :=
  let n := i.natAbs
  if 0 ≤ i then
    let grown := vs ++ List.replicate (n + 1 - vs.length) Value.nothing
    grown.modify n f
  else
    let grown := List.replicate (n - vs.length) Value.nothing ++ vs
    grown.modify (grown.length - n) f

@[simp] theorem length_changeItem (f : Value → Value) (n : Nat) (vs : List Value) :
    (changeItem f n vs).length = max vs.length (n + 1) := by
  simp only [changeItem, Int.natAbs_natCast, Int.natCast_nonneg, ↓reduceIte, List.length_modify,
    List.length_append, List.length_replicate]
  omega

/-- Lays a value over what stands at a path. Where a table or a list is needed on the way and
something else stands there, it gives way. An item of a list is replaced as a whole. -/
def overlayAt (value : Value) : Path → Value → Value
  | [], _ => value
  | [.name k], below => .table (overlayEntries below.entries [(k, value)])
  | .name k :: path, below =>
    let key := Text.lower k
    let inner := (below.entries.lookup key).getD .nothing
    .table (insertEntry key (overlayAt value path inner) below.entries)
  | .index i :: path, below => .list (changeItem (fun v => overlayAt value path v) i below.items)

/-- Lays a file over the layers below it. A top-level key that reads as a path in lower case is
one. -/
def overlayFile (below file : Entries) : Entries :=
  file.foldl
    (fun below (k, v) =>
      let key := Text.lower k
      (overlayAt v ((Path.ofKey? key).getD [.name key]) (.table below)).entries)
    below

/-- The variables of the environment that override a value, each with the path of the value. -/
def environmentOverrides : List (String × List String) :=
  [("DB_HOST", ["database", "host"]),
    ("DB_PORT", ["database", "port"]),
    ("DB_USER", ["database", "user"]),
    ("DB_PASSWORD", ["database", "password"]),
    ("DB_NAME", ["database", "name"]),
    ("DB_ALIAS", ["database", "alias"]),
    ("DB_MAX_CONNECTIONS", ["database", "max_connections"]),
    ("DB_IDLE_TIMEOUT_SECS", ["database", "idle_timeout_secs"]),
    ("ZEBRA_1_HOST", ["printers", "zebra-1", "host"]),
    ("ZEBRA_1_PORT", ["printers", "zebra-1", "port"]),
    ("ZEBRA_1_NAME", ["printers", "zebra-1", "name"]),
    ("ZEBRA_1_MODEL", ["printers", "zebra-1", "model"]),
    ("ZEBRA_2_HOST", ["printers", "zebra-2", "host"]),
    ("ZEBRA_2_PORT", ["printers", "zebra-2", "port"]),
    ("ZEBRA_2_NAME", ["printers", "zebra-2", "name"]),
    ("ZEBRA_2_MODEL", ["printers", "zebra-2", "model"])]

/-- Lays the variables that are set over the layers below. -/
def overlayEnvironment (environment : String → Option String) (below : Entries) : Entries :=
  environmentOverrides.foldl
    (fun below (name, path) =>
      match environment name with
      | some s => (overlayAt (.string s) (.ofNames path) (.table below)).entries
      | none => below)
    below

/-! ### The layer of built-in values -/

def Database.entries (d : Database) : Entries :=
  [("alias", .string d.nickname), ("host", .string d.host),
    ("idle_timeout_secs", .integer d.idleTimeoutSecs.toNat),
    ("max_connections", .integer d.maxConnections.toNat), ("name", .string d.name),
    ("password", .string d.password), ("port", .integer d.port.toNat), ("user", .string d.user)]

def Printer.entries (p : Printer) : Entries :=
  [("host", .string p.host), ("model", .string p.model), ("name", .string p.name),
    ("port", .integer p.port.toNat)]

def Timeouts.entries (t : Timeouts) : Entries :=
  [("command", t.command), ("database", t.database), ("detailed", t.detailed), ("full", t.full),
    ("live", t.live), ("preflight", t.preflight), ("printer_test", t.printerTest),
    ("report", t.report), ("test_print", t.testPrint)].map fun (k, ms) => (k, .integer ms.toNat)

/-- A configuration as a layer. -/
def entries (c : Config) : Entries :=
  [("database", .table c.database.entries),
    ("printers", .table (c.printers.entries.map fun (id, p) => (id, .table p.entries))),
    ("timeouts", .table c.timeouts.entries)]

end LabelFleet.Config
