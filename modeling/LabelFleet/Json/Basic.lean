import LabelFleet.Number.Binary64
import LabelFleet.Table

/-! JSON values. A number is an integer as long as it fits into 64 bits and a double otherwise. The
members of an object are pairs in a fixed order. -/
namespace LabelFleet

inductive Json
  | null
  | bool (b : Bool)
  | natural (n : Nat)
  | negative (n : Nat)
  | double (x : Float)
  | string (s : String)
  | array (items : List Json)
  | object (members : List (String × Json))

namespace Json

abbrev Members := List (String × Json)

/-- The value of the first member with this name. -/
def Members.find? (name : String) (members : Members) : Option Json := members.lookup name

def get? (name : String) : Json → Option Json
  | object members => Members.find? name members
  | _ => none

def string? : Json → Option String
  | string s => some s
  | _ => none

/-- An object with the entries of a table. -/
def ofTable {α : Type} (encode : α → Json) (t : Table α) : Json :=
  object (t.map encode).entries

/-- A double, or `null` when the value is not finite. -/
def number (x : Float) : Json := if Binary64.isFinite x then double x else null

def ofInt (n : Int) : Json := if n < 0 then negative n.natAbs else natural n.toNat

def optional {α : Type} (encode : α → Json) : Option α → Json
  | some a => encode a
  | none => null

end Json

end LabelFleet
