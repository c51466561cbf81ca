import LabelFleet.Calendar
import LabelFleet.Database.Numeric
import LabelFleet.Json.Reader
import LabelFleet.Number.Hex
import LabelFleet.Text.Utf8

/-! Cells of a result as the server sends them: bytes whose meaning depends on the type of the
column. The most significant byte comes first. A cell without a value, of another type, or with
bytes that mean nothing is `null`. -/
namespace LabelFleet.Database

/-- The types of which cells are shown. -/
inductive CellType
  | bool
  | int (size : Nat)
  | float4
  | float8
  | numeric
  | uuid
  | json
  | jsonb
  | timestampTz
  | timestamp
  | date
  | time
  | text
  | unsupported
deriving DecidableEq, Repr

/-- The types whose bytes are a text. -/
def textTypes : List String :=
  ["TEXT", "VARCHAR", "BPCHAR", "NAME", "CHAR", "\"CHAR\"", "UNKNOWN", "citext"]

def CellType.ofName (name : String) : CellType :=
  match name with
  | "BOOL" => bool
  | "INT2" => int 2
  | "INT4" => int 4
  | "INT8" => int 8
  | "FLOAT4" => float4
  | "FLOAT8" => float8
  | "NUMERIC" => numeric
  | "UUID" => uuid
  | "JSON" => json
  | "JSONB" => jsonb
  | "TIMESTAMPTZ" => timestampTz
  | "TIMESTAMP" => timestamp
  | "DATE" => date
  | "TIME" => time
  | name => if name ∈ textTypes then text else unsupported

namespace Cell

def natural (bytes : List UInt8) : Nat := bytes.foldl (fun n b => 256 * n + b.toNat) 0

/-- The integer whose lowest bits are the given ones. -/
def integer (bytes : List UInt8) : Int := Int.bmod (natural bytes) (Nat.pow 256 bytes.length)

/-- An integer of the given number of bytes. It may have been sent in more or fewer of them. -/
def int? (size : Nat) (bytes : List UInt8) : Option Int :=
  let n := integer bytes
  if bytes.isEmpty || 8 < bytes.length || Int.bmod n (Nat.pow 256 size) ≠ n then none else some n

/-- An integer that was sent in exactly the given number of bytes. -/
def ofSize? (size : Nat) (bytes : List UInt8) : Option Int :=
  if bytes.length = size then some (integer bytes) else none

def float4? (bytes : List UInt8) : Option Float :=
  if bytes.length = 4 then some (Float32.ofBits (UInt32.ofNat (natural bytes))).toFloat else none

def float8? (bytes : List UInt8) : Option Float :=
  if bytes.length = 8 then some (Float.ofBits (UInt64.ofNat (natural bytes))) else none

/-- Numbers of two bytes each. -/
def words : List UInt8 → List Nat
  | a :: b :: bytes => natural [a, b] :: words bytes
  | _ => []

/-- A decimal number is sent as the count of its digits, the power of the first digit, the sign, the
digits that are shown after the point, and the digits, all to the base of 10000. -/
def numeric? (bytes : List UInt8) : Option Numeric :=
  match words bytes with
  | count :: weight :: sign :: scale :: digits =>
    let negative := sign == 0x4000
    if (sign ≠ 0 ∧ ¬negative) ∨ digits.length < count then none
    else if count = 0 then Numeric.ofParts? false 0 0
    else
      let all := (digits.take count).foldl (fun n d => 10000 * n + d) 0
      let power := Int.bmod weight (Nat.pow 2 16) - count + 1
      let (num, den) := Binary64.scaleDown 10000 all 1 (-power)
      Numeric.ofFraction? negative num den (min scale 28)
  | _ => none

/-- Groups of 4, 2, 2, 2 and 6 bytes in hexadecimal digits. -/
def uuid? (bytes : List UInt8) : Option String :=
  if bytes.length = 16 then
    let group (start size : Nat) := ((bytes.drop start).take size).flatMap Hex.ofByte
    some (String.ofList (group 0 4 ++ '-' :: group 4 2 ++ '-' :: group 6 2 ++ '-' :: group 8 2 ++
      '-' :: group 10 6))
  else none

def json? (bytes : List UInt8) : Option Json := do
  let s ← (Utf8.decode bytes).toOption
  (Json.parse s).toOption

/-- The days from the start of 1970 to the start of 2000, from which servers count. -/
def epochDays : Int := 10957

/-- The years in which dates are shown. -/
def isShown (d : Date) : Bool := -262143 ≤ d.year && d.year ≤ 262142

def date? (days : Int) : Option (List Char) :=
  let d := Date.ofDays (days + epochDays)
  if isShown d then some d.text else none

def dayMicros : Int := 86400000000

/-- A time of day with as many groups of three digits after the point as it needs. -/
def clockText (micros : Nat) : List Char :=
  let t : ClockTime := ⟨1000000, micros⟩
  if t.fraction = 0 then t.text
  else if t.fraction % 1000 = 0 then t.text ++ '.' :: Digits.padded 3 (t.fraction / 1000)
  else t.text ++ '.' :: Digits.padded 6 t.fraction

/-- The time of day that many microseconds after midnight; whole days do not count. -/
def time (micros : Int) : List Char := clockText (Int.fmod micros dayMicros).toNat

/-- Date and time that many microseconds after the start of 2000. -/
def instant? (separator : Char) (micros : Int) : Option (List Char) := do
  let d ← date? (Int.fdiv micros dayMicros)
  return d ++ separator :: time micros

def textCell (s : List Char) : Json := .string (String.ofList s)

def decode? (t : CellType) (bytes : List UInt8) : Option Json :=
  match t with
  | .bool => bytes.head?.map fun b => .bool (b != 0)
  | .int size => (int? size bytes).map .ofInt
  | .float4 => (float4? bytes).map .number
  | .float8 => (float8? bytes).map .number
  | .numeric => (numeric? bytes).map Numeric.toJson
  | .uuid => (uuid? bytes).map .string
  | .json => json? bytes
  | .jsonb => if bytes.head? = some 1 then json? bytes.tail else none
  | .timestampTz => do
    return textCell ((← instant? 'T' (← ofSize? 8 bytes)) ++ "+00:00".toList)
  | .timestamp => do return textCell (← instant? ' ' (← ofSize? 8 bytes))
  | .date => do return textCell (← date? (← ofSize? 4 bytes))
  | .time => (ofSize? 8 bytes).map fun n => textCell (time n)
  | .text => (Utf8.decode bytes).toOption.map textCell
  | .unsupported => none

/-- The value that is shown for a cell. -/
def value (t : CellType) (cell : Option (List UInt8)) : Json :=
  (cell.bind (decode? t)).getD .null

end Cell

end LabelFleet.Database
