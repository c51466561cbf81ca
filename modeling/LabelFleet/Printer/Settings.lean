import LabelFleet.Json.Skip
import LabelFleet.Json.Text
import LabelFleet.Number.Read
import LabelFleet.Printer.Error
import LabelFleet.Text.Blank
import LabelFleet.Text.Quoted

/-! The settings that a printer reports as JSON. Printers write numbers as strings; plain numbers
are read as well. The settings may also come as an array of their values. Faults are reported in the
order in which they stand in the text. -/
namespace LabelFleet.Printer

structure Settings where
  name : String
  model : String
  /-- Dots per inch of the print head. -/
  dpi : UInt32
  /-- Label width in inches. -/
  width : Float
  /-- Label length in inches. -/
  length : Float
  darkness : UInt32
  /-- Inches per second. -/
  speed : UInt32
deriving DecidableEq

namespace Settings

inductive Field
  | name
  | model
  | dpi
  | width
  | length
  | darkness
  | speed
deriving DecidableEq, Repr

namespace Field

/-- The fields in the order of an array. -/
def all : List Field := [name, model, dpi, width, length, darkness, speed]

def label : Field → String
  | name => "name"
  | model => "model"
  | dpi => "dpi"
  | width => "width"
  | length => "length"
  | darkness => "darkness"
  | speed => "speed"

def ofLabel? (s : String) : Option Field := all.find? fun f => f.label == s

end Field

/-- A value of a type that was not asked for. -/
inductive Found
  | null
  | bool (b : Bool)
  | number (v : Json)
  | string (s : String)
  | sequence
  | map

def Found.text : Found → String
  | null => "null"
  | bool b => if b then "boolean `true`" else "boolean `false`"
  | number (.double x) => s!"floating point `{String.ofList (Style.json.text x)}`"
  | number v => s!"integer `{v.compactText}`"
  | string s => s!"string {Text.quoted s.toList}"
  | sequence => "sequence"
  | map => "map"

inductive Fault
  | json (e : Json.SyntaxError)
  | wrongType (found : Found) (expected : String)
  | wrongLength (n : Nat)
  | duplicate (f : Field)
  | missing (f : Field)
  | notNumeric (v : Json)
  | integer (e : Digits.ReadError)
  | float (e : Number.ReadError)

def Fault.message : Fault → String
  | json e => e.message
  | wrongType found expected => s!"invalid type: {found.text}, expected {expected}"
  | wrongLength n =>
    s!"invalid length {Digits.text n}, expected struct PrinterSettings with 7 elements"
  | duplicate f => s!"duplicate field `{f.label}`"
  | missing f => s!"missing field `{f.label}`"
  | notNumeric v => s!"expected number, got {v.compactText}"
  | integer e => e.message
  | float e => e.message

def json {α : Type} : Except Json.SyntaxError α → Except Fault α
  | .ok a => .ok a
  | .error e => .error (.json e)

/-- Names a value that was not asked for; the value has to be well formed up to where its type
shows. -/
def wrongType {α : Type} (expected : String) (s : List Char) : Except Fault α := do
  let found ←
    match s with
    | 'n' :: s => (json (Json.readWord "ull".toList s)).map fun _ => Found.null
    | 't' :: s => (json (Json.readWord "rue".toList s)).map fun _ => .bool true
    | 'f' :: s => (json (Json.readWord "alse".toList s)).map fun _ => .bool false
    | '-' :: s => (json (Json.readNumber true s)).map fun r => .number r.1
    | '"' :: s => (json (Json.readString s)).map fun r => .string r.1
    | '[' :: _ => pure .sequence
    | '\x7b' :: _ => pure .map
    | c :: _ =>
      if c.isDigit then (json (Json.readNumber false s)).map fun r => .number r.1
      else throw (.json .expectedValue)
    | [] => throw (.json .endInValue)
  throw (.wrongType found expected)

def readText (s : List Char) : Except Fault (String × List Char) :=
  match Json.skipSpace s with
  | [] => .error (.json .endInValue)
  | '"' :: s => json (Json.readString s)
  | s => wrongType "a string" s

/-- The text of a number or of a string that may hold one. -/
def numericText : Json → Except Fault (List Char)
  | .string s => .ok (Text.trim s.toList)
  | .natural n => .ok (Digits.ofNat n)
  | .negative n => .ok ('-' :: Digits.ofNat n)
  | .double x => .ok (Style.json.text x)
  | v => .error (.notNumeric v)

def readValue (s : List Char) : Except Fault (Json × List Char) :=
  json (Json.readValue (Json.depthLimit - 1) (Json.fuelFor s) s)

def toWord (v : Json) : Except Fault UInt32 := do
  match Digits.read (Nat.pow 2 32) (← numericText v) with
  | .ok n => return UInt32.ofNat n
  | .error e => throw (.integer e)

def toFloat (v : Json) : Except Fault Float := do
  match Number.read (← numericText v) with
  | .ok x => return x
  | .error e => throw (.float e)

structure Draft where
  name : Option String := none
  model : Option String := none
  dpi : Option UInt32 := none
  width : Option Float := none
  length : Option Float := none
  darkness : Option UInt32 := none
  speed : Option UInt32 := none

namespace Draft

def has (d : Draft) : Field → Bool
  | .name => d.name.isSome
  | .model => d.model.isSome
  | .dpi => d.dpi.isSome
  | .width => d.width.isSome
  | .length => d.length.isSome
  | .darkness => d.darkness.isSome
  | .speed => d.speed.isSome

def read (d : Draft) (f : Field) (s : List Char) : Except Fault (Draft × List Char) :=
  match f with
  | .name => do
    let (t, s) ← readText s
    return ({ d with name := some t }, s)
  | .model => do
    let (t, s) ← readText s
    return ({ d with model := some t }, s)
  | .dpi => do
    let (v, s) ← readValue s
    return ({ d with dpi := some (← toWord v) }, s)
  | .width => do
    let (v, s) ← readValue s
    return ({ d with width := some (← toFloat v) }, s)
  | .length => do
    let (v, s) ← readValue s
    return ({ d with length := some (← toFloat v) }, s)
  | .darkness => do
    let (v, s) ← readValue s
    return ({ d with darkness := some (← toWord v) }, s)
  | .speed => do
    let (v, s) ← readValue s
    return ({ d with speed := some (← toWord v) }, s)

def need {α : Type} (f : Field) : Option α → Except Fault α
  | some a => .ok a
  | none => .error (.missing f)

/-- The settings, once every field has been read. -/
def finish (d : Draft) : Except Fault Settings := do
  return ⟨← need .name d.name, ← need .model d.model, ← need .dpi d.dpi, ← need .width d.width,
    ← need .length d.length, ← need .darkness d.darkness, ← need .speed d.speed⟩

end Draft

/-- Reads members up to the closing brace. Members with other names are passed over. -/
def readMembers (first : Bool) (d : Draft) : Nat → List Char → Except Fault (Draft × List Char)
  | 0, _ => .error (.json .endInObject)
  | fuel + 1, s => do
    match ← json (Json.nextName first s) with
    | (none, s) => return (d, s)
    | (some name, s) =>
      match Field.ofLabel? name with
      | none =>
        let s ← json (Json.readColon s)
        readMembers false d fuel (← json (Json.skip s))
      | some f =>
        if d.has f then throw (.duplicate f)
        let (d, s) ← d.read f (← json (Json.readColon s))
        readMembers false d fuel s

def readItems (d : Draft) (done : Nat) : List Field → List Char → Except Fault (Draft × List Char)
  | [], s => .ok (d, s)
  | f :: fs, s => do
    match ← json (Json.nextItem (done == 0) s) with
    | (false, _) => throw (.wrongLength done)
    | (true, s) =>
      let (d, s) ← d.read f s
      readItems d (done + 1) fs s

/-- The closing bracket after the last item. -/
def closeItems (s : List Char) : Except Json.SyntaxError (List Char) :=
  match Json.skipSpace s with
  | [] => .error .endInList
  | ']' :: s => .ok s
  | ',' :: s =>
    if (Json.skipSpace s).head? = some ']' then .error .trailingComma
    else .error .trailingCharacters
  | _ => .error .trailingCharacters

def read (s : List Char) : Except Fault Settings := do
  match Json.skipSpace s with
  | [] => throw (.json .endInValue)
  | '\x7b' :: s =>
    let (d, s) ← readMembers true {} (s.length + 1) s
    let settings ← d.finish
    json (Json.atEnd s)
    return settings
  | '[' :: s =>
    let (d, s) ← readItems {} 0 Field.all s
    let settings ← d.finish
    json (Json.atEnd (← json (closeItems s)))
    return settings
  | s => wrongType "struct PrinterSettings" s

def Fault.toError (f : Fault) : PrinterError := .malformedResponse s!"^WD: {f.message}"

def parse (line : List Char) : Except Fault Settings := read (Text.trim line)

def members (s : Settings) : List (String × Json) :=
  [("name", .string s.name), ("model", .string s.model), ("dpi", .natural s.dpi.toNat),
    ("width", .number s.width), ("length", .number s.length),
    ("darkness", .natural s.darkness.toNat), ("speed", .natural s.speed.toNat)]

def toJson (s : Settings) : Json := .object s.members

def dots (dpi : UInt32) (inches : Float) : Nat :=
  Binary64.toBounded (Nat.pow 2 32) (inches * Binary64.ofNat dpi.toNat)

def labelDots (s : Settings) : Nat × Nat := (dots s.dpi s.width, dots s.dpi s.length)

end Settings

end LabelFleet.Printer
