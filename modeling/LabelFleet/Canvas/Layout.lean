import LabelFleet.Canvas.Basic
import LabelFleet.Number.Binary64

/-! Laying out a label. The canvas reaches beyond the lower right corner of everything that is
drawn; each primitive becomes one element, in the same order. -/
namespace LabelFleet.Canvas

open Markup (Primitive Kind)

def noContent : String := "No printable content detected"

/-- The width of a primitive that has none of its own. -/
def fallbackWidth : Float := 100

/-- The height of a primitive that has none of its own. -/
def fallbackHeight : Float := 30

def minWidth : Float := 200

def minHeight : Float := 150

/-- The margin to the right of the drawing and below it. -/
def padding : Float := 40

def barcodeCaption : String := "1234567890"

/-- A length that is positive, or else the fallback. -/
def positiveOr (fallback : Float) : Option Float → Float
  | some v => if 0 < v then v else fallback
  | none => fallback

def right (p : Primitive) : Float := p.origin.1 + positiveOr fallbackWidth p.extent.1

def bottom (p : Primitive) : Float := p.origin.2 + positiveOr fallbackHeight p.extent.2

/-- The lower right corner of the drawing, at least that of the smallest canvas. -/
def boundingBox (ps : List Primitive) : Float × Float :=
  ps.foldl (fun (x, y) p => (Binary64.larger x (right p), Binary64.larger y (bottom p)))
    (minWidth, minHeight)

def Element.ofPrimitive : Primitive → Element
  | .text x y fontSize s => .text x y fontSize s
  | .barcode x y height _ => .barcode x y height barcodeCaption
  | .qrCode x y size => .qrPlaceholder x y size
  | .box x y width height thickness => .box x y width height thickness
  | .line x y width height _ => .line x y width height

def Tree.ofPrimitives (ps : List Primitive) : Tree :=
  if ps.isEmpty then .placeholder noContent
  else
    let (x, y) := boundingBox ps
    .canvas (x + padding) (y + padding) (ps.map Element.ofPrimitive)

/-- Counts one more of a kind. A kind that is new is put where it belongs in the order of kinds. -/
def countOne (k : Kind) : List (Kind × Nat) → List (Kind × Nat)
  | [] => [(k, 1)]
  | (j, n) :: counts =>
    if k.rank < j.rank then (k, 1) :: (j, n) :: counts
    else if k = j then (j, n + 1) :: counts
    else (j, n) :: countOne k counts

/-- The kinds that occur, each with its count. -/
def countKinds (ps : List Primitive) : List (Kind × Nat) :=
  ps.foldl (fun counts p => countOne p.kind counts) []

def Info.ofPrimitives (ps : List Primitive) : Info := ⟨ps.length, countKinds ps⟩

def render (ps : List Primitive) : Rendered := ⟨.ofPrimitives ps, .ofPrimitives ps⟩

end LabelFleet.Canvas
