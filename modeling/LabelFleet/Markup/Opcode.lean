import LabelFleet.Text.Search

/-! The commands that a label preview understands. Each is known by three characters at the start of
the command's text; every other command is kept and has no effect. -/
namespace LabelFleet.Markup

inductive Opcode
  | fieldOrigin
  | fontSelect
  | fieldData
  | fieldSeparator
  | barcode128
  | qrCode
  | graphicBox
  | startFormat
  | endFormat
  | other
deriving DecidableEq, Repr

namespace Opcode

/-- The opcodes with a mark of their own. -/
def recognized : List Opcode :=
  [fieldOrigin, fontSelect, fieldData, fieldSeparator, barcode128, qrCode, graphicBox, startFormat,
    endFormat]

/-- The characters that a command with this opcode begins with. -/
def mark? : Opcode → Option String
  | fieldOrigin => some "^FO"
  | fontSelect => some "^A0"
  | fieldData => some "^FD"
  | fieldSeparator => some "^FS"
  | barcode128 => some "^BC"
  | qrCode => some "^BQ"
  | graphicBox => some "^GB"
  | startFormat => some "^XA"
  | endFormat => some "^XZ"
  | other => none

def marks (text : List Char) (op : Opcode) : Bool :=
  match op.mark? with
  | some mark => Text.begins mark.toList text
  | none => false

/-- The opcode whose mark the text begins with. -/
def classify (text : List Char) : Opcode := (recognized.find? (marks text)).getD other

end Opcode

end LabelFleet.Markup
