import LabelFleet.Markup.Cursor
import LabelFleet.Markup.Primitive
import LabelFleet.Markup.Token

/-! Drawing a label. Commands are taken in order: some move the cursor or select its font, some draw
one primitive at it, and all others have no effect. -/
namespace LabelFleet.Markup

structure Options where
  /-- The factor of every coordinate and size. -/
  scale : Float := 0.5
  /-- The font size before the first font command; it is not scaled. -/
  fontSize : Float := 30

/-- The height of a barcode that names none. -/
def barcodeHeight : Float := 50

/-- The size of a QR code that names no magnification. -/
def qrSize : Float := 50

/-- The dots that one step of QR magnification adds. -/
def qrUnit : Float := 10

/-- A scaled box with a side below this is a rule. -/
def ruleLimit : Float := 3

/-- The payload of a field is one line that is not empty. -/
def fieldData? (c : Cursor) (args : List Char) : Option Primitive :=
  if args.isEmpty ∨ '\n' ∈ args ∨ '\r' ∈ args then none
  else some (.text c.x c.y c.fontSize (String.ofList args))

def barcode (c : Cursor) (args : List Char) : Primitive :=
  let height := ((Arguments.upperNumber args).map (· * c.scale)).getD barcodeHeight
  .barcode c.x c.y height .code128

def qrCode (c : Cursor) (args : List Char) : Primitive :=
  let size := ((Arguments.upperPair args).map fun (_, step) => step * qrUnit * c.scale).getD qrSize
  .qrCode c.x c.y size

/-- A box, or a rule if it is flat. The height is looked at first, so a box without any area is a
horizontal rule. -/
def graphicBox? (c : Cursor) (args : List Char) : Option Primitive :=
  (Arguments.triple args).map fun (w, h, t) =>
    let width := w * c.scale
    let height := h * c.scale
    let thickness := t * c.scale
    if height < ruleLimit then
      .line c.x c.y width (Binary64.larger thickness 1) .horizontal
    else if width < ruleLimit then
      .line c.x c.y (Binary64.larger thickness 1) height .vertical
    else .box c.x c.y width height thickness

def draw? (c : Cursor) (t : Token) : Option Primitive :=
  match t.opcode with
  | .fieldData => fieldData? c t.args
  | .barcode128 => some (barcode c t.args)
  | .qrCode => some (qrCode c t.args)
  | .graphicBox => graphicBox? c t.args
  | _ => none

def advance (c : Cursor) (t : Token) : Cursor :=
  match t.opcode with
  | .fieldOrigin => c.moveTo t.args
  | .fontSelect => c.selectFont t.args
  | _ => c

/-- What the commands draw from a cursor on. -/
def interpretFrom (c : Cursor) : List Token → List Primitive
  | [] => []
  | t :: ts => (draw? c t).toList ++ interpretFrom (advance c t) ts

def interpret (options : Options) (tokens : List Token) : List Primitive :=
  interpretFrom (.start options.scale options.fontSize) tokens

/-- The primitives of a markup under the usual options. -/
def interpretText (markup : String) : List Primitive := interpret {} (tokenize markup)

end LabelFleet.Markup
