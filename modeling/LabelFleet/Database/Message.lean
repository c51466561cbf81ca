import LabelFleet.Database.Server

/-! The messages between a database server and its clients. A message is a letter, the length of
what follows, and its body; numbers come with their most significant byte first and texts end in a
zero. -/
namespace LabelFleet.Database

/-- The types that have a name here, under the numbers by which servers know them. -/
def typeNames : List (Nat × String) :=
  [(16, "BOOL"), (18, "\"CHAR\""), (19, "NAME"), (20, "INT8"), (21, "INT2"), (23, "INT4"),
    (25, "TEXT"), (114, "JSON"), (700, "FLOAT4"), (701, "FLOAT8"), (705, "UNKNOWN"),
    (1042, "CHAR"), (1043, "VARCHAR"), (1082, "DATE"), (1083, "TIME"), (1114, "TIMESTAMP"),
    (1184, "TIMESTAMPTZ"), (1700, "NUMERIC"), (2950, "UUID"), (3802, "JSONB")]

/-- The type of a column from the number under which servers keep it. -/
def CellType.ofNumber (n : Nat) : CellType :=
  match typeNames.lookup n with
  | some name => ofName name
  | none => unsupported

namespace Message

/-- The lowest bytes of a number. -/
def number : Nat → Nat → List UInt8
  | 0, _ => []
  | size + 1, n => number size (n / 256) ++ [UInt8.ofNat n]

def text (s : String) : List UInt8 := Utf8.encode s.toList ++ [0]

/-- A body behind its length, which counts itself. -/
def sized (body : List UInt8) : List UInt8 := number 4 (body.length + 4) ++ body

def lettered (letter : Char) (body : List UInt8) : List UInt8 :=
  UInt8.ofNat letter.toNat :: sized body

/-- The first message of a client; the number is the version of the protocol. -/
def startup (user database : String) : List UInt8 :=
  sized (number 4 196608 ++ text "user" ++ text user ++ text "database" ++ text database ++ [0])

def password (s : String) : List UInt8 := lettered 'p' (text s)

/-- Sends a statement and asks for its rows, with all values in bytes rather than as text. -/
def statement (s : String) : List UInt8 :=
  lettered 'P' (text "" ++ text s ++ number 2 0) ++
    lettered 'B' (text "" ++ text "" ++ number 2 0 ++ number 2 0 ++ number 2 1 ++ number 2 1) ++
    lettered 'D' (UInt8.ofNat 'P'.toNat :: text "") ++ lettered 'E' (text "" ++ number 4 0) ++
    lettered 'S' []

def terminate : List UInt8 := lettered 'X' []

end Message

inductive Message
  /-- Asks the client to prove who it is; 0 says that it need not. -/
  | authentication (method : Nat)
  | columns (cs : List Column)
  | row (cells : List (Option (List UInt8)))
  | error (text : String)
  | ready
  | other
deriving DecidableEq, Repr

namespace Message

/-- A text up to its zero, and what follows. -/
def readText (bytes : List UInt8) : String × List UInt8 :=
  (String.ofList (Utf8.lossy (bytes.takeWhile (· ≠ 0))), (bytes.dropWhile (· ≠ 0)).drop 1)

/-- The descriptions of columns. Behind the name stand the number of the table, of the column in it,
and of the type, and ten more bytes. -/
def readColumns : Nat → List UInt8 → List Column
  | 0, _ => []
  | n + 1, bytes =>
    let (name, rest) := readText bytes
    ⟨name, .ofNumber (Cell.natural ((rest.drop 6).take 4))⟩ :: readColumns n (rest.drop 18)

/-- The cells of a row, each behind its length; a negative length stands for no value. -/
def readCells : Nat → List UInt8 → List (Option (List UInt8))
  | 0, _ => []
  | n + 1, bytes =>
    let length := Cell.integer (bytes.take 4)
    let rest := bytes.drop 4
    if length < 0 then none :: readCells n rest
    else some (rest.take length.toNat) :: readCells n (rest.drop length.toNat)

/-- The field of an error with the given letter; each field is a letter and a text. -/
def errorField (letter : Char) : Nat → List UInt8 → String
  | 0, _ => ""
  | _, [] => ""
  | fuel + 1, b :: bytes =>
    let (s, rest) := readText bytes
    if b.toNat = letter.toNat then s else errorField letter fuel rest

def decode (letter : UInt8) (body : List UInt8) : Message :=
  match Char.ofNat letter.toNat with
  | 'R' => authentication (Cell.natural (body.take 4))
  | 'T' => columns (readColumns (Cell.natural (body.take 2)) (body.drop 2))
  | 'D' => row (readCells (Cell.natural (body.take 2)) (body.drop 2))
  | 'E' => error (errorField 'M' body.length body)
  | 'Z' => ready
  | _ => other

end Message

/-- What has come of a statement so far. -/
structure Reading where
  columns : List Column := []
  rows : List (List (Option (List UInt8))) := []
  error : Option String := none
deriving DecidableEq, Repr

namespace Reading

def take (r : Reading) : Message → Reading
  | .columns cs => { r with columns := cs }
  | .row cells => { r with rows := r.rows ++ [cells] }
  | .error text => { r with error := some text }
  | _ => r

def result (r : Reading) : Except Fault ResultSet :=
  match r.error with
  | some text => .error (.server text)
  | none => .ok (decodeRows r.columns r.rows)

end Reading

end LabelFleet.Database
