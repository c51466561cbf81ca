import LabelFleet.Config.Basic
import LabelFleet.Text.Blank

/-! The targets that a configuration names: the printers by id, and the database behind its
nickname. -/
namespace LabelFleet

structure PrinterTarget where
  id : String
  host : String
  port : UInt16
  displayName : String
  model : String
deriving DecidableEq, Repr

namespace PrinterTarget

def ofEntry (id : String) (p : Config.Printer) : PrinterTarget :=
  ⟨id, p.host, p.port, p.name, p.model⟩

def address (t : PrinterTarget) : Address := ⟨t.host, t.port⟩

/-- The members of a printer's view; its id is not among them. -/
def members (t : PrinterTarget) : List (String × Json) :=
  [("host", .string t.host), ("port", .natural t.port.toNat), ("printer", .string t.displayName),
    ("model", .string t.model)]

end PrinterTarget

namespace Config

def printer? (c : Config) (id : String) : Option PrinterTarget :=
  (c.printers.get? id).map (.ofEntry id)

/-- All printers, in the order of their ids. -/
def printerTargets (c : Config) : List PrinterTarget :=
  c.printers.entries.map fun e => .ofEntry e.1 e.2

/-- The database that an operator means by a name: the configured one for its nickname, in any case
and with blanks around it, and for a blank name; the one of that very name otherwise. -/
def Database.resolve (d : Database) (name : String) : String :=
  let s := Text.trim name.toList
  if s.isEmpty || Text.sameLetters (String.ofList s) d.nickname then d.name else name

end Config

end LabelFleet
