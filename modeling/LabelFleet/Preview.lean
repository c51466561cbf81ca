import LabelFleet.Canvas.Json
import LabelFleet.Canvas.Layout
import LabelFleet.Markup.Interpret

/-! Previewing what an operator typed. A text with a start of format in it is drawn as a label; any
other text that is not blank is a control command and only named. -/
namespace LabelFleet

inductive InputKind
  | blank
  | controlCommand
  | label
deriving DecidableEq, Repr

def InputKind.name : InputKind → String
  | blank => "blank"
  | controlCommand => "control_command"
  | label => "label"

def startOfLabel : String := "^XA"

def classify (markup : String) : InputKind :=
  let s := Text.trim markup.toList
  if s.isEmpty then .blank
  else if Text.occurs startOfLabel.toList s then .label
  else .controlCommand

inductive Preview
  | blank
  | controlCommand (command : String)
  | label (rendered : Canvas.Rendered)
deriving DecidableEq

namespace Preview

def kind : Preview → InputKind
  | blank => .blank
  | controlCommand _ => .controlCommand
  | label _ => .label

def ofMarkup (options : Markup.Options) (markup : String) : Preview :=
  match classify markup with
  | .blank => blank
  | .controlCommand => controlCommand (Text.trimmed markup)
  | .label => label (Canvas.render (Markup.interpret options (Markup.tokenize markup)))

/-- The members that follow the input's kind. -/
def members : Preview → List (String × Json)
  | blank => []
  | controlCommand command => [("command", .string command)]
  | label r => [("tree", r.tree.toJson), ("info", r.info.toJson)]

def toJson (p : Preview) : Json := .object (("input", .string p.kind.name) :: p.members)

end Preview

end LabelFleet
