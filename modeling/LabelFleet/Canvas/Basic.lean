import LabelFleet.Markup.Primitive

/-! The picture of a label: a canvas with one element for each primitive, or a message when there is
nothing to draw, and the counts that are shown beside it. -/
namespace LabelFleet.Canvas

inductive Element
  | text (left top fontSize : Float) (text : String)
  | barcode (left top barHeight : Float) (caption : String)
  | qrPlaceholder (left top size : Float)
  | box (left top width height borderWidth : Float)
  | line (left top width height : Float)
deriving DecidableEq

inductive Tree
  | placeholder (message : String)
  | canvas (width height : Float) (elements : List Element)
deriving DecidableEq

/-- How many primitives a label has, and how many of each kind; only kinds that occur are listed. -/
structure Info where
  elementCount : Nat
  types : List (Markup.Kind × Nat)
deriving DecidableEq, Repr

structure Rendered where
  tree : Tree
  info : Info
deriving DecidableEq

end LabelFleet.Canvas
