import LabelFleet.Toml.Reader

/-! A TOML document: the table that its statements build up. A header opens a table for the
assignments that follow it. No table is opened twice, and no name is given two values. -/
namespace LabelFleet.Toml

namespace Node

/-- Changes the entries of the table at a path. Tables on the way are made if there are none; in an
array of tables the last one is meant. -/
def update (f : Nodes → Option Nodes) : List String → Nodes → Option Nodes
  | [], es => f es
  | p :: ps, es =>
    match es.lookup p with
    | none => (update f ps []).map fun sub => putEntry p (table true false sub) es
    | some (table implicit dotted sub) =>
      (update f ps sub).map fun sub => putEntry p (table implicit dotted sub) es
    | some (tables last before) =>
      (update f ps last).map fun last => putEntry p (tables last before) es
    | some (value _) => none

/-- Opens a table by its header, as the last one of the table around it. Only a table that headers
of others have implied may be there. -/
def openTable (name : String) (es : Nodes) : Option Nodes :=
  match es.lookup name with
  | none => some (putEntry name (table false false []) es)
  | some (table true false sub) =>
    some (es.filter (fun e => e.1 != name) ++ [(name, table false false sub)])
  | some _ => none

/-- Opens one more table in an array of tables. -/
def appendTable (name : String) (es : Nodes) : Option Nodes :=
  match es.lookup name with
  | none => some (putEntry name (tables [] []) es)
  | some (tables last before) => some (putEntry name (tables [] (last :: before)) es)
  | some _ => none

end Node

/-- The document so far, and the path of the table that is open. -/
structure Draft where
  root : Nodes := []
  current : List String := []

namespace Draft

def step (d : Draft) : Statement → Option Draft
  | .assign k v =>
    (Node.update (Node.assign k.name v k.path) d.current d.root).map fun root => { d with root }
  | .open k =>
    (Node.update (Node.openTable k.name) k.path d.root).map fun root =>
      ⟨root, k.path ++ [k.name]⟩
  | .append k =>
    (Node.update (Node.appendTable k.name) k.path d.root).map fun root =>
      ⟨root, k.path ++ [k.name]⟩

end Draft

/-- The text after a byte order mark, if it starts with one. -/
def afterMark (text : String) : List Char :=
  match text.toList with
  | '\ufeff' :: s => s
  | s => s

/-- The table of a document, or nothing if the text is not well formed. -/
def parse? (text : String) : Option Entries := do
  let s := afterMark text
  let statements ← statements? (s.length + 1) s
  let d ← statements.foldlM Draft.step {}
  return Node.entriesValue d.root

end LabelFleet.Toml
