import LabelFleet.Database.Console
import LabelFleet.Database.Message
import LabelFleet.Sockets.Line

/-! Statements sent to a database server over a socket. The server has to trust the client, or to
take its password as it is. -/
namespace LabelFleet.Sockets

open Std.Async
open Database (Fault Message Pool Reading ResultSet Call)

/-- Does something with the network, whose failures are faults of the database. -/
def attempt {α : Type} (work : Async α) : ExceptT Fault Async α :=
  ExceptT.mk do
    try return .ok (← work)
    catch e => return .error (.network (causeOf e))

/-- Reads so many bytes of a server that does not hang up before. -/
def expect (l : Line) (count : Nat) : ExceptT Fault Async (List UInt8) := do
  match ← attempt (l.take? count) with
  | some bytes => return bytes
  | none => throw (.network "expected to read more bytes, got 0 bytes at EOF")

def readMessage (l : Line) : ExceptT Fault Async Message := do
  let head ← expect l 5
  let body ← expect l (Database.Cell.natural (head.drop 1) - 4)
  return Message.decode (head.headD 0) body

partial def awaitLogin (l : Line) (password : String) : ExceptT Fault Async Unit := do
  match ← readMessage l with
  | .ready => return
  | .error text => throw (.server text)
  | .authentication 3 =>
    attempt (l.write (Message.password password))
    awaitLogin l password
  | .authentication 0 => awaitLogin l password
  | .authentication method =>
    throw (.protocol s!"unsupported authentication method {method}")
  | _ => awaitLogin l password

def login (c : Config.Database) (l : Line) (database : String) : ExceptT Fault Async Unit := do
  attempt (l.write (Message.startup c.user database))
  awaitLogin l c.password

/-- Reads all that the server has to say about a statement. -/
partial def readAnswer (l : Line) (r : Reading) : ExceptT Fault Async Reading := do
  match ← readMessage l with
  | .ready => return r
  | message => readAnswer l (r.take message)

def runStatement (l : Line) (statement : String) : ExceptT Fault Async ResultSet := do
  attempt (l.write (Message.statement statement))
  let answer ← readAnswer l {}
  attempt (l.write Message.terminate)
  MonadExcept.ofExcept answer.result

/-- Dials the server. The pool tries again until the given moment when nothing listens yet. -/
partial def openServer (c : Config.Database) (pooled : Bool) (deadline : Nat) :
    ExceptT Fault Async Line := do
  let a : Address := ⟨c.host, c.port⟩
  match ← resolve a with
  | .error e => throw (.network e.message)
  | .ok endpoint =>
    match ← Line.dial endpoint with
    | .ok l =>
      attempt l.socket.noDelay
      return l
    | .error (.failed cause) => throw (.network cause)
    | .error (.refused cause) =>
      if !pooled then throw (.network cause)
      let now ← IO.monoMsNow
      if deadline ≤ now then throw .poolTimeout
      pause (min 50 (deadline - now))
      openServer c pooled deadline

def runCall (c : Config) (call : Call) : Async (Except Database.Error ResultSet) := do
  let limit := Database.waitLimit c
  let pool : Pool := ⟨c.database.name, limit⟩
  let deadline := (← IO.monoMsNow) + limit
  let go : ExceptT Database.Error Async ResultSet := do
    let l ← ExceptT.adapt (pool.loginError call.database) do
      let l ← openServer c.database (call.database == pool.database) deadline
      login c.database l call.database
      return l
    ExceptT.adapt (.query call.database) (runStatement l call.statement)
  go.run

/-- Sends a statement and waits for its rows, though not longer than the configuration says. -/
def runCallInTime (c : Config) (call : Call) :
    Async (Timed (Except Database.Error ResultSet)) :=
  timed (Database.waitLimit c) (.ok ⟨[], []⟩) (runCall c call)

end LabelFleet.Sockets
