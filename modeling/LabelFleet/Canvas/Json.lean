import LabelFleet.Canvas.Basic
import LabelFleet.Json.Basic

/-! The picture of a label as JSON. -/
namespace LabelFleet.Canvas

open LabelFleet (Json)

def Element.toJson : Element → Json
  | .text left top fontSize s =>
    .object [("element", .string "text"), ("left", .number left), ("top", .number top),
      ("font_size", .number fontSize), ("text", .string s)]
  | .barcode left top barHeight caption =>
    .object [("element", .string "barcode"), ("left", .number left), ("top", .number top),
      ("bar_height", .number barHeight), ("caption", .string caption)]
  | .qrPlaceholder left top size =>
    .object [("element", .string "qr_placeholder"), ("left", .number left), ("top", .number top),
      ("size", .number size)]
  | .box left top width height borderWidth =>
    .object [("element", .string "box"), ("left", .number left), ("top", .number top),
      ("width", .number width), ("height", .number height), ("border_width", .number borderWidth)]
  | .line left top width height =>
    .object [("element", .string "line"), ("left", .number left), ("top", .number top),
      ("width", .number width), ("height", .number height)]

def Tree.toJson : Tree → Json
  | .placeholder message =>
    .object [("kind", .string "placeholder"), ("message", .string message)]
  | .canvas width height elements =>
    .object [("kind", .string "canvas"), ("width", .number width), ("height", .number height),
      ("elements", .array (elements.map Element.toJson))]

def Info.toJson (info : Info) : Json :=
  .object [("elementCount", .natural info.elementCount),
    ("types", .object (info.types.map fun (k, n) => (k.name, .natural n)))]

end LabelFleet.Canvas
