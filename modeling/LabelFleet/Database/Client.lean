import LabelFleet.Database.Error
import LabelFleet.Health.Probe
import LabelFleet.Json.Basic

/-! Results of a database, and the two things a database is asked: whether it answers, and what a
statement returns. -/
namespace LabelFleet.Database

/-- Rows of values, with the names of their columns. -/
structure ResultSet where
  columns : List String
  rows : List (List Json)

namespace ResultSet

def toArrays (r : ResultSet) : Json := .array (r.rows.map .array)

/-- The members of a row: columns and values are paired as far as both go, and of columns with one
name the last one counts. -/
def rowMembers (columns : List String) (row : List Json) : List (String × Json) :=
  (Table.ofList (columns.zip row)).entries

/-- Each row as an object with a member for each column. -/
def toObjects (r : ResultSet) : Json :=
  .array (r.rows.map fun row => .object (rowMembers r.columns row))

def toJson (r : ResultSet) : Json :=
  .object [("columns", .array (r.columns.map .string)), ("rows", r.toArrays)]

end ResultSet

structure Client where
  ping : String → Timed (Except Error Unit)
  query : String → String → Timed (Except Error ResultSet)

def Client.constant (answer : Timed (Except Error ResultSet)) : Client where
  ping _ := answer.map fun r => r.map fun _ => ()
  query _ _ := answer

def Client.silent : Client := .constant ⟨none, .ok ⟨[], []⟩⟩

/-- Pings a database and reports it under its nickname. The limit is kept here already. -/
def probe (nickname database : String) (client : Client) : Health.Probe where
  kind := .database
  target := nickname
  check limit :=
    let answer := (client.ping database).map fun r => r.mapError Error.message
    answer.within limit (.error (Health.timedOut limit))

end LabelFleet.Database
