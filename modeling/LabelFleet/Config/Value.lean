import LabelFleet.Toml.Date

/-! Values of a configuration, before they are converted to the types of their fields. -/
namespace LabelFleet.Config

inductive Value
  /-- Stands for an item of a list that nobody has set. -/
  | nothing
  | string (s : String)
  | integer (n : Int)
  | float (x : Float)
  | bool (b : Bool)
  | list (items : List Value)
  | table (entries : List (String × Value))

abbrev Entries := List (String × Value)

namespace Value

/-- The entries of a table; any other value gives way to a table. -/
def entries : Value → Entries
  | table es => es
  | _ => []

/-- The items of a list; any other value gives way to a list. -/
def items : Value → List Value
  | list vs => vs
  | _ => []

mutual

/-- A value of a document, with dates as texts. It is not well formed if it has a table that is
marked as a date and gives none. -/
def ofToml? : Toml.Value → Option Value
  | .string s => some (string s)
  | .integer n => some (integer n)
  | .float x => some (float x)
  | .bool b => some (bool b)
  | .dateTime text => some (string text)
  | .array vs => (itemsOfToml? vs).map list
  | .table es =>
    match Toml.markedDate? es with
    | some v => v.dateText?.map string
    | none => (entriesOfToml? es).map table

def itemsOfToml? : List Toml.Value → Option (List Value)
  | [] => some []
  | v :: vs => do return (← ofToml? v) :: (← itemsOfToml? vs)

def entriesOfToml? : Toml.Entries → Option Entries
  | [] => some []
  | (k, v) :: es => do return (k, ← ofToml? v) :: (← entriesOfToml? es)

end

end Value

end LabelFleet.Config
