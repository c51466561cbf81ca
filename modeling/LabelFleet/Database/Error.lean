import LabelFleet.Duration

/-! What can go wrong between the console and a database. -/
namespace LabelFleet.Database

/-- What the connection itself reports. -/
inductive Fault
  /-- The server sent something that makes no sense. -/
  | protocol (text : String)
  | server (text : String)
  | poolTimeout
  | network (cause : String)
deriving DecidableEq, Repr

def Fault.message : Fault → String
  | protocol text => s!"encountered unexpected or invalid data: {text}"
  | server text => s!"error returned from database: {text}"
  | poolTimeout => "pool timed out while waiting for an open connection"
  | network cause => s!"error communicating with database: {cause}"

inductive Error
  /-- The server could not be reached or refused the login. -/
  | connect (database : String) (fault : Fault)
  | query (database : String) (fault : Fault)
  | timeout (database : String) (limit : Duration)
deriving DecidableEq, Repr

def Error.message : Error → String
  | connect database fault => s!"cannot connect to {database}: {fault.message}"
  | query database fault => s!"query on {database} failed: {fault.message}"
  | timeout database limit => s!"{database} did not answer within {limit.text}"

end LabelFleet.Database
