import LabelFleet.Markup.Arguments

/-! The cursor of a label: where the next field is drawn and in which font size. Arguments are
scaled when they are applied, and an argument that cannot be read leaves the cursor as it was. -/
namespace LabelFleet.Markup

structure Cursor where
  x : Float
  y : Float
  fontSize : Float
  scale : Float
deriving DecidableEq

namespace Cursor

/-- The origin, with a font size that is not scaled. -/
def start (scale fontSize : Float) : Cursor := ⟨0, 0, fontSize, scale⟩

def moveTo (c : Cursor) (args : List Char) : Cursor :=
  match Arguments.pair args with
  | some (x, y) => { c with x := x * c.scale, y := y * c.scale }
  | none => c

/-- Selects the font `o,h,w`, of which only the height counts. -/
def selectFont (c : Cursor) (args : List Char) : Cursor :=
  match Arguments.upperPair args with
  | some (height, _) => { c with fontSize := height * c.scale }
  | none => c

@[simp] theorem moveTo_scale (c : Cursor) (args : List Char) : (c.moveTo args).scale = c.scale := by
  unfold moveTo; split <;> rfl

@[simp] theorem moveTo_fontSize (c : Cursor) (args : List Char) :
    (c.moveTo args).fontSize = c.fontSize := by
  unfold moveTo; split <;> rfl

@[simp] theorem selectFont_scale (c : Cursor) (args : List Char) :
    (c.selectFont args).scale = c.scale := by
  unfold selectFont; split <;> rfl

@[simp] theorem selectFont_x (c : Cursor) (args : List Char) : (c.selectFont args).x = c.x := by
  unfold selectFont; split <;> rfl

@[simp] theorem selectFont_y (c : Cursor) (args : List Char) : (c.selectFont args).y = c.y := by
  unfold selectFont; split <;> rfl

end Cursor

end LabelFleet.Markup
