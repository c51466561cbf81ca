import LabelFleet.Config.Target
import LabelFleet.ConsoleError
import LabelFleet.Database.Client

/-! The SQL console. Whatever the database does becomes an outcome; only a request without a
database or a statement is refused, and then the database is not asked at all. -/
namespace LabelFleet.Database

def connectionTest : String := "SELECT 1 AS ok"

def listTablesStatement : String :=
  "SELECT table_schema::text, table_name::text, table_type::text " ++
    "FROM information_schema.tables " ++
    "WHERE table_type = 'BASE TABLE' " ++
    "ORDER BY table_schema, table_name"

structure Outcome where
  success : Bool
  note : Option String := none
  recordset : Option Json := none
  error : Option String := none

namespace Outcome

def rows (recordset : Json) : Outcome := { success := true, recordset := some recordset }

def failed (e : Error) : Outcome := { success := false, error := some e.message }

def toJson (o : Outcome) : Json :=
  .object ([("success", .bool o.success)] ++
    o.note.toList.map (fun t => ("message", .string t)) ++
    o.recordset.toList.map (fun r => ("recordset", r)) ++
    o.error.toList.map (fun t => ("error", .string t)))

end Outcome

/-- A statement and the database it goes to. -/
structure Call where
  database : String
  statement : String
deriving DecidableEq, Repr

/-- What came of an operation, the statements that the database was sent, and how long it took in
milliseconds. -/
structure Answered (α : Type) where
  value : α
  calls : List Call
  elapsed : Nat

def Answered.map {α β : Type} (f : α → β) (a : Answered α) : Answered β :=
  ⟨f a.value, a.calls, a.elapsed⟩

/-- How long a database is waited for, in milliseconds. -/
def waitLimit (c : Config) : Nat := c.timeouts.database.toNat

/-- Sends one statement to the database with this name and waits for its rows. -/
def send (c : Config) (client : Client) (database statement : String) :
    Answered (Except Error ResultSet) :=
  let limit := waitLimit c
  let answer := client.query database statement
  ⟨(answer.within limit (.error (.timeout database (.ofMillis limit)))).value,
    [⟨database, statement⟩], answer.waited limit⟩

/-- Sends a statement and turns the answer into an outcome. -/
def ask (c : Config) (client : Client) (database statement : String)
    (outcome : ResultSet → Outcome) : Answered Outcome :=
  (send c client database statement).map fun answer =>
    match answer with
    | .ok r => outcome r
    | .error e => .failed e

def testConnection (c : Config) (client : Client) (name : String) : Answered Outcome :=
  let database := c.database.resolve name
  ask c client database connectionTest fun r =>
    { Outcome.rows r.toObjects with note := some s!"Connected to {database}" }

/-- Lists the tables of the database behind a name, as rows of schema, name and type. -/
def listTables (c : Config) (client : Client) (name : String) : Answered Outcome :=
  ask c client (c.database.resolve name) listTablesStatement fun r => .rows r.toArrays

def isBlank (s : String) : Bool := (Text.trim s.toList).isEmpty

def execute (c : Config) (client : Client) (database statement : String) :
    Answered (Except ConsoleError Outcome) :=
  if isBlank database || isBlank statement then
    ⟨.error (.badRequest "Missing database or query"), [], 0⟩
  else
    (ask c client (c.database.resolve database) statement fun r => .rows r.toArrays).map .ok

inductive Request
  | test (name : String)
  | tables (name : String)
  | execute (database statement : String)
deriving DecidableEq, Repr

namespace Request

def answer (c : Config) (client : Client) : Request → Answered (Except ConsoleError Outcome)
  | test name => (testConnection c client name).map .ok
  | tables name => (listTables c client name).map .ok
  | execute database statement => Database.execute c client database statement

/-- The statement that the request sends, which is the same whatever the database answers. -/
def call? (c : Config) (r : Request) : Option Call := (r.answer c .silent).calls.head?

end Request

/-- Requests one after the other, to a database whose answers may depend on the statements it was
sent before. Beside the answers stands everything that the database has been sent in the end. -/
def converse (c : Config) (db : List Call → Client) (log : List Call) :
    List Request → List (Answered (Except ConsoleError Outcome)) × List Call
  | [] => ([], log)
  | r :: rs =>
    let a := r.answer c (db log)
    let (answers, log) := converse c db (log ++ a.calls) rs
    (a :: answers, log)

end LabelFleet.Database
