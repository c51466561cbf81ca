import LabelFleet.Database.Cell
import LabelFleet.Database.Client

/-! A database server as its clients see it. The configured database is reached through a pool of
connections, any other one through a connection of its own, and the two report a server that cannot
be reached differently. -/
namespace LabelFleet.Database

structure Column where
  name : String
  type : CellType
deriving DecidableEq, Repr

inductive Server
  /-- Nothing listens; the system reports why. -/
  | down (cause : String)
  | refusesLogin (text : String)
  | failsStatements (text : String)
  | returns (columns : List Column) (rows : List (List (Option (List UInt8))))

/-- The rows as they are shown. Without any rows the columns are not known either. -/
def decodeRows (columns : List Column) (rows : List (List (Option (List UInt8)))) : ResultSet where
  columns := if rows.isEmpty then [] else columns.map Column.name
  rows := rows.map fun row => columns.zipWith (fun c cell => Cell.value c.type cell) row

/-- What a pool reports of a server. -/
structure Pool where
  /-- The database of the pool's connections. -/
  database : String
  /-- How long a connection is waited for, in milliseconds. -/
  acquireLimit : Nat

/-- How a login that has failed is told: a pool reports it as the failure of the statement. -/
def Pool.loginError (pool : Pool) (database : String) (fault : Fault) : Error :=
  if database = pool.database then .query database fault else .connect database fault

namespace Server

/-- Runs a statement through the pool, or through a connection of its own. -/
def run (server : Server) (pool : Pool) (database : String) : Timed (Except Error ResultSet) :=
  match server with
  | down cause =>
    if database = pool.database then ⟨some pool.acquireLimit, .error (.query database .poolTimeout)⟩
    else .now (.error (.connect database (.network cause)))
  | refusesLogin text => .now (.error (pool.loginError database (.server text)))
  | failsStatements text => .now (.error (.query database (.server text)))
  | returns columns rows => .now (.ok (decodeRows columns rows))

/-- A ping that fails counts as a failure to connect. -/
def pingError : Error → Error
  | .query database fault => .connect database fault
  | e => e

def client (server : Server) (pool : Pool) : Client where
  ping database := (server.run pool database).map fun r => (r.map fun _ => ()).mapError pingError
  query database _ := server.run pool database

end Server

end LabelFleet.Database
