import LabelFleet.Json.Basic
import LabelFleet.Markup.Primitive

/-! Primitives as JSON. An object names its kind in the member `type` and has one member for each
measure. Reading takes members in any order, passes over members that it does not know, and accepts
the values alone as an array that starts with the kind. -/
namespace LabelFleet.Markup

namespace Orientation

def name : Orientation → String
  | horizontal => "horizontal"
  | vertical => "vertical"

def all : List Orientation := [horizontal, vertical]

end Orientation

namespace Symbology

def name : Symbology → String
  | code128 => "code128"

def all : List Symbology := [code128]

end Symbology

namespace Primitive

/-- The members of a kind after `type`, in the order in which they are written. -/
def memberNames : Kind → List String
  | .text => ["x", "y", "fontSize", "text"]
  | .barcode => ["x", "y", "height", "symbology"]
  | .qrCode => ["x", "y", "size"]
  | .box => ["x", "y", "width", "height", "thickness"]
  | .line => ["x", "y", "width", "height", "orientation"]

def members : Primitive → List Json
  | text x y fontSize s => [.number x, .number y, .number fontSize, .string s]
  | barcode x y height symbology => [.number x, .number y, .number height, .string symbology.name]
  | qrCode x y size => [.number x, .number y, .number size]
  | box x y width height thickness =>
    [.number x, .number y, .number width, .number height, .number thickness]
  | line x y width height orientation =>
    [.number x, .number y, .number width, .number height, .string orientation.name]

def toJson (p : Primitive) : Json :=
  .object (("type", .string p.kind.name) :: (memberNames p.kind).zip p.members)

/-- A number of any kind; integers are taken as doubles. -/
def measure? : Json → Option Float
  | .natural n => some (Binary64.ofNat n)
  | .negative n => some (Binary64.negate (Binary64.ofNat n))
  | .double x => some x
  | _ => none

/-- The value of an enumeration: its name, or an object whose only member has that name and holds
nothing. -/
def choice? {α : Type} (all : List α) (name : α → String) : Json → Option α
  | .string s => all.find? fun a => name a == s
  | .object [(s, .null)] => all.find? fun a => name a == s
  | .object [(s, .object [])] => all.find? fun a => name a == s
  | _ => none

/-- The primitive with these member values. -/
def ofMembers? : Kind → List Json → Option Primitive
  | .text, [x, y, fontSize, s] => do
    return .text (← measure? x) (← measure? y) (← measure? fontSize) (← s.string?)
  | .barcode, [x, y, height, s] => do
    return .barcode (← measure? x) (← measure? y) (← measure? height)
      (← choice? Symbology.all Symbology.name s)
  | .qrCode, [x, y, size] => do
    return .qrCode (← measure? x) (← measure? y) (← measure? size)
  | .box, [x, y, width, height, thickness] => do
    return .box (← measure? x) (← measure? y) (← measure? width) (← measure? height)
      (← measure? thickness)
  | .line, [x, y, width, height, o] => do
    return .line (← measure? x) (← measure? y) (← measure? width) (← measure? height)
      (← choice? Orientation.all Orientation.name o)
  | _, _ => none

def kind? (name : String) : Option Kind := Kind.all.find? fun k => k.name == name

def ofJson? : Json → Option Primitive
  | .object ms => do
    let k ← kind? (← (← Json.Members.find? "type" ms).string?)
    ofMembers? k (← (memberNames k).mapM fun n => Json.Members.find? n ms)
  | .array (.string name :: values) => do ofMembers? (← kind? name) values
  | _ => none

end Primitive

end LabelFleet.Markup
