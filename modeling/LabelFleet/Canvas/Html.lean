import LabelFleet.Canvas.Basic
import LabelFleet.Number.Style

/-! The picture of a label as HTML. Every element is a block at a fixed place inside the block of
the canvas; texts are escaped, so that no character of a label can end the block it stands in. -/
namespace LabelFleet.Canvas

/-- The entity that stands for a character with a meaning in HTML. -/
def entity? : Char → Option String
  | '&' => some "&amp;"
  | '<' => some "&lt;"
  | '>' => some "&gt;"
  | '"' => some "&quot;"
  | '\'' => some "&#39;"
  | _ => none

def escapeChar (c : Char) : List Char :=
  match entity? c with
  | some e => e.toList
  | none => [c]

def escapeChars (s : List Char) : List Char := s.flatMap escapeChar

def escape (s : String) : String := String.ofList (escapeChars s.toList)

def px (x : Float) : String := String.ofList (Style.plain.text x) ++ "px"

/-- The declarations that put an element in its place. -/
def placed (left top : Float) : String := s!"position:absolute;left:{px left};top:{px top};"

def sized (width height : Float) : String := s!"width:{px width};height:{px height};"

namespace Element

def className : Element → String
  | text .. => "zpl-text"
  | barcode .. => "zpl-barcode"
  | qrPlaceholder .. => "zpl-qrcode"
  | box .. => "zpl-box"
  | line .. => "zpl-line"

def style : Element → String
  | text left top fontSize _ =>
    s!"{placed left top}font-size:{px fontSize};font-family:monospace;"
  | barcode left top _ _ => placed left top
  | qrPlaceholder left top size => s!"{placed left top}{sized size size}border:1px solid #000;"
  | box left top width height borderWidth =>
    s!"{placed left top}{sized width height}border:{px borderWidth} solid #000;" ++
      "box-sizing:border-box;"
  | line left top width height => s!"{placed left top}{sized width height}background:#000;"

/-- What stands inside an element's block. -/
def content : Element → String
  | text _ _ _ s => escape s
  | barcode _ _ barHeight caption =>
    s!"<div class=\"bars\" style=\"height:{px barHeight};\"></div>" ++
      s!"<div class=\"caption\">{escape caption}</div>"
  | qrPlaceholder .. => "QR"
  | box .. => ""
  | line .. => ""

def toHtml (e : Element) : String :=
  s!"<div class=\"label-element {className e}\" style=\"{style e}\">{content e}</div>"

end Element

namespace Tree

def toHtml : Tree → String
  | placeholder message =>
    s!"<div class=\"label-preview\"><div class=\"empty-label\">{escape message}</div></div>"
  | canvas width height elements =>
    s!"<div class=\"label-preview\" style=\"position:relative;{sized width height}" ++
      "background:#fff;border:1px solid #ccc;\">" ++
      String.join (elements.map fun e => s!"\n{Element.toHtml e}") ++ "\n</div>"

end Tree

namespace Info

def summary (info : Info) : String :=
  ", ".intercalate (info.types.map fun (k, n) => s!"{k.name}: {Digits.text n}")

end Info

namespace Rendered

/-- The picture, and below it the number of elements. -/
def toHtmlDocument (r : Rendered) : String :=
  let counts := if r.info.types.isEmpty then "" else s!" ({r.info.summary})"
  s!"{r.tree.toHtml}\n<p class=\"preview-info\">Elements: {Digits.text r.info.elementCount}" ++
    counts ++ "</p>"

end Rendered

end LabelFleet.Canvas
