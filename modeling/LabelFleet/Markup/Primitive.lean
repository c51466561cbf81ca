/-! Drawing primitives: what a label draws, each at its own place. Sizes are scaled already. -/
namespace LabelFleet.Markup

inductive Orientation
  | horizontal
  | vertical
deriving DecidableEq, Repr

inductive Symbology
  | code128
deriving DecidableEq, Repr

inductive Primitive
  | text (x y fontSize : Float) (text : String)
  | barcode (x y height : Float) (symbology : Symbology)
  | qrCode (x y size : Float)
  | box (x y width height thickness : Float)
  | line (x y width height : Float) (orientation : Orientation)
deriving DecidableEq

inductive Kind
  | text
  | barcode
  | qrCode
  | box
  | line
deriving DecidableEq, Repr

namespace Kind

def name : Kind → String
  | text => "text"
  | barcode => "barcode"
  | qrCode => "qrcode"
  | box => "box"
  | line => "line"

/-- All kinds, in the order in which counts are listed. -/
def all : List Kind := [text, barcode, qrCode, box, line]

theorem mem_all (k : Kind) : k ∈ all := by cases k <;> decide

/-- The place of a kind in that order. -/
def rank (k : Kind) : Nat := all.idxOf k

theorem rank_injective {a b : Kind} (h : a.rank = b.rank) : a = b := by
  revert h; cases a <;> cases b <;> decide

end Kind

namespace Primitive

def kind : Primitive → Kind
  | text .. => .text
  | barcode .. => .barcode
  | qrCode .. => .qrCode
  | box .. => .box
  | line .. => .line

def origin : Primitive → Float × Float
  | text x y .. => (x, y)
  | barcode x y .. => (x, y)
  | qrCode x y _ => (x, y)
  | box x y .. => (x, y)
  | line x y .. => (x, y)

/-- Width and height, where the primitive has them: a text has only the height of its line, and the
bars of a barcode have no width of their own. -/
def extent : Primitive → Option Float × Option Float
  | text _ _ fontSize _ => (none, some fontSize)
  | barcode _ _ height _ => (none, some height)
  | qrCode _ _ size => (some size, some size)
  | box _ _ width height _ => (some width, some height)
  | line _ _ width height _ => (some width, some height)

end Primitive

end LabelFleet.Markup
