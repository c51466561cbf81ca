import LabelFleet.Config.Error
import LabelFleet.Config.Layer
import LabelFleet.Number.Style
import LabelFleet.Text.Quoted
import LabelFleet.Toml.Document

/-! Loading the configuration: built-in values, then a file, then the environment. Every value is
converted to the type of its field; one that cannot be converted fails the whole load. -/
namespace LabelFleet.Config

abbrev Load := Except Error

/-- An error inside a key. -/
def inside {α : Type} (key : String) : Load α → Load α
  | .ok a => .ok a
  | .error e => .error (e.inside key)

/-! ### Single values -/

/-- A double with a point, where it is named in a message. -/
def pointed (x : Float) : String :=
  let s := Style.plain.text x
  String.ofList (if '.' ∈ s ∨ !Binary64.isFinite x then s else s ++ ['.', '0'])

def valueError {α : Type} (found expected : String) : Load α := .error (.value found expected "")

/-- The words that stand for one and for nothing, in any case. -/
def switch? (s : String) : Option Nat :=
  let w := String.ofList (s.toList.map Char.toLower)
  if w = "true" ∨ w = "on" ∨ w = "yes" then some 1
  else if w = "false" ∨ w = "off" ∨ w = "no" then some 0
  else none

def integerText (n : Int) : String :=
  if 0 ≤ n then Digits.text n.toNat else s!"-{Digits.text n.natAbs}"

def boolText (b : Bool) : String := if b then "true" else "false"

def toNat : Value → Load Nat
  | .integer n =>
    if 0 ≤ n then .ok n.toNat
    else valueError s!"64-bit integer `{integerText n}`"
      "an unsigned 64 bit or less integer"
  | .float x => .ok (Binary64.toBounded (Nat.pow 2 64) x)
  | .bool b => .ok (if b then 1 else 0)
  | .string s =>
    match switch? s, Digits.read (Nat.pow 2 64) s.toList with
    | some n, _ => .ok n
    | none, .ok n => .ok n
    | none, .error _ => valueError s!"string {Text.quoted s.toList}" "an integer"
  | .nothing => valueError "unit value" "an integer"
  | .list _ => valueError "sequence" "an integer"
  | .table _ => valueError "map" "an integer"

/-- A natural number of fewer bits. -/
def toBits (bits : Nat) (v : Value) : Load Nat := do
  let n ← toNat v
  if n < Nat.pow 2 bits then return n
  else
    valueError s!"64-bit unsigned integer `{Digits.text n}`"
      s!"an unsigned {Digits.text bits} bit integer"

def toPort (v : Value) : Load UInt16 := do return UInt16.ofNat (← toBits 16 v)

def toWord (v : Value) : Load UInt32 := do return UInt32.ofNat (← toBits 32 v)

def toLong (v : Value) : Load UInt64 := do return UInt64.ofNat (← toNat v)

/-- Numbers and switches are taken as their text. -/
def toText : Value → Load String
  | .string s => .ok s
  | .integer n => .ok (integerText n)
  | .float x => .ok (String.ofList (Style.plain.text x))
  | .bool b => .ok (boolText b)
  | .nothing => valueError "unit value" "a string"
  | .list _ => valueError "sequence" "a string"
  | .table _ => valueError "map" "a string"

/-! ### Groups of fields -/

/-- How a value that is no group is named. -/
def describe : Value → String
  | .nothing => "unit value"
  | .string s => s!"string {Text.quoted s.toList}"
  | .integer n => s!"integer `{integerText n}`"
  | .float x => s!"floating point `{pointed x}`"
  | .bool b => s!"boolean `{boolText b}`"
  | .list _ => "sequence"
  | .table _ => "map"

/-- The values of a group, by name or in order. -/
inductive Group
  | named (es : Entries)
  | listed (vs : List Value)

namespace Group

def ofValue (expected : String) : Value → Load Group
  | .table es => .ok (named es)
  | .list vs => .ok (listed vs)
  | v => .error (.group (describe v) expected)

/-- The value of a field, if the group gives one. -/
def read {α : Type} (g : Group) (index : Nat) (name : String) (convert : Value → Load α) :
    Load (Option α) :=
  let found :=
    match g with
    | named es => (es.lookup name).map fun v => (name, v)
    | listed vs => vs[index]?.map fun v => (s!"[{Digits.text index}]", v)
  match found with
  | some (key, v) => (inside key (convert v)).map some
  | none => .ok none

/-- The value of a field that has to be there. The group and its number of fields are named if it is
a list. -/
def need {α : Type} (g : Group) (index : Nat) (name expected : String) : Option α → Load α
  | some a => .ok a
  | none =>
    match g with
    | named _ => .error (.missingField name)
    | listed _ => .error (.tooShort index expected)

end Group

/-- Fields are converted in order before one that is missing is noticed. -/
def Database.ofValue (v : Value) : Load Database := do
  let g ← Group.ofValue "struct DatabaseConfig" v
  let host ← g.read 0 "host" toText
  let port ← g.read 1 "port" toPort
  let user ← g.read 2 "user" toText
  let password ← g.read 3 "password" toText
  let name ← g.read 4 "name" toText
  let nickname ← g.read 5 "alias" toText
  let maxConnections ← g.read 6 "max_connections" toWord
  let idle ← g.read 7 "idle_timeout_secs" toLong
  let need {α : Type} (i : Nat) (n : String) : Option α → Load α :=
    g.need i n "struct DatabaseConfig with 8 elements"
  return {
    host := ← need 0 "host" host
    port := ← need 1 "port" port
    user := ← need 2 "user" user
    password := ← need 3 "password" password
    name := ← need 4 "name" name
    nickname := ← need 5 "alias" nickname
    maxConnections := ← need 6 "max_connections" maxConnections
    idleTimeoutSecs := ← need 7 "idle_timeout_secs" idle }

def Printer.ofValue (v : Value) : Load Printer := do
  let g ← Group.ofValue "struct PrinterEntry" v
  let host ← g.read 0 "host" toText
  let port ← g.read 1 "port" toPort
  let name ← g.read 2 "name" toText
  let model ← g.read 3 "model" toText
  let need {α : Type} (i : Nat) (n : String) : Option α → Load α :=
    g.need i n "struct PrinterEntry with 4 elements"
  return {
    host := ← need 0 "host" host
    port := ← need 1 "port" port
    name := ← need 2 "name" name
    model := ← need 3 "model" model }

def Timeouts.ofValue (v : Value) : Load Timeouts := do
  let g ← Group.ofValue "struct ProbeTimeouts" v
  let preflight ← g.read 0 "preflight" toLong
  let live ← g.read 1 "live" toLong
  let detailed ← g.read 2 "detailed" toLong
  let report ← g.read 3 "report" toLong
  let full ← g.read 4 "full" toLong
  let printerTest ← g.read 5 "printer_test" toLong
  let testPrint ← g.read 6 "test_print" toLong
  let command ← g.read 7 "command" toLong
  let database ← g.read 8 "database" toLong
  let need (i : Nat) (n : String) : Option UInt64 → Load UInt64 :=
    g.need i n "struct ProbeTimeouts with 9 elements"
  return {
    preflight := ← need 0 "preflight" preflight
    live := ← need 1 "live" live
    detailed := ← need 2 "detailed" detailed
    report := ← need 3 "report" report
    full := ← need 4 "full" full
    printerTest := ← need 5 "printer_test" printerTest
    testPrint := ← need 6 "test_print" testPrint
    command := ← need 7 "command" command
    database := ← need 8 "database" database }

/-- The printers of a table, each under its id. -/
def printersOf : Entries → Load (Table Printer)
  | [] => .ok .empty
  | (id, v) :: es => do
    let p ← inside id (Printer.ofValue v)
    return (← printersOf es).insert id p

def printersOfValue : Value → Load (Table Printer)
  | .table es => printersOf es
  | v => .error (.group (describe v) "a map")

/-- The configuration that all layers together make up. -/
def ofEntries (es : Entries) : Load Config := do
  let g := Group.named es
  let database ← g.read 0 "database" Database.ofValue
  let printers ← g.read 1 "printers" printersOfValue
  let timeouts ← g.read 2 "timeouts" Timeouts.ofValue
  return {
    database := ← g.need 0 "database" "" database
    printers := ← g.need 1 "printers" "" printers
    timeouts := ← g.need 2 "timeouts" "" timeouts }

/-! ### Loading -/

/-- The file of an operator's own settings. -/
inductive File
  | absent
  | missing (path : String)
  | unreadable (cause : String)
  | text (s : String)

/-- The entries of a file. It is a table, and not one that is marked as a date. A byte order mark of
the file may stand before that of the document. -/
def File.entries : File → Load Entries
  | absent => .ok []
  | missing path => .error (.fileNotFound path)
  | unreadable cause => .error (.unreadableFile cause)
  | text s =>
    let document := String.ofList (Toml.afterMark s)
    match (Toml.parse? document).bind fun es => Value.ofToml? (.table es) with
    | some (.table es) => .ok es
    | _ => .error .malformedFile

def load (file : File) (environment : String → Option String) : Load Config := do
  let builtin : Config := {}
  ofEntries (overlayEnvironment environment (overlayFile builtin.entries (← file.entries)))

end LabelFleet.Config
