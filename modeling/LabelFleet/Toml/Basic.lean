/-! Values of a TOML document, and the statements that a document is made of. -/
namespace LabelFleet.Toml

inductive Value
  | string (s : String)
  | integer (n : Int)
  | float (x : Float)
  | bool (b : Bool)
  /-- A date, a time of day or both, in their usual text. -/
  | dateTime (text : String)
  | array (items : List Value)
  /-- The entries are in the order of the document. -/
  | table (entries : List (String × Value))

abbrev Entries := List (String × Value)

/-- Takes a value from the start of a text; what may follow the value is not its business. -/
abbrev Reader (α : Type) := List Char → Option (α × List Char)

/-- Puts an entry in the place of the one with its name, or at the end if there is none. -/
def putEntry {α : Type} (name : String) (a : α) : List (String × α) → List (String × α)
  | [] => [(name, a)]
  | (k, b) :: es => if k = name then (name, a) :: es else (k, b) :: putEntry name a es

/-- A dotted key: the names before the last one, and the last. -/
structure Key where
  path : List String
  name : String
deriving DecidableEq, Repr

namespace Key

def ofList? (names : List String) : Option Key :=
  names.getLast?.map fun n => ⟨names.dropLast, n⟩

end Key

/-- One line of a document, as far as it says something. -/
inductive Statement
  | assign (key : Key) (value : Value)
  | open (key : Key)
  /-- The header of one more element in an array of tables. -/
  | append (key : Key)

end LabelFleet.Toml
