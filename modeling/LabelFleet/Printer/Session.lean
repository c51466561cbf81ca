import LabelFleet.Printer.Address
import LabelFleet.Printer.Channel
import LabelFleet.Printer.Command
import LabelFleet.Printer.Settings

/-! Sessions with a printer. A query sends a command and takes the next line for its answer. -/
namespace LabelFleet.Printer

def isLineEnd (c : Char) : Bool := c == '\r' || c == '\n'

/-- A line without the line feeds and carriage returns at its end. -/
def withoutLineEnd (s : List Char) : List Char := (s.reverse.dropWhile isLineEnd).reverse

def lineText (line : List UInt8) : Except PrinterError String :=
  match Utf8.decode line with
  | .ok s => .ok (String.ofList (withoutLineEnd s))
  | .error f => .error (.readFailed f.message)

/-- A command as it is sent: a line of its own. -/
def commandLine (command : String) : List UInt8 := Utf8.encode (command.toList ++ ['\n'])

/-- The answer that a wait for a line brings to a session. -/
def Heard.answer : Heard → Except PrinterError String
  | silence => .error .readTimeout
  | bytes [] => .error .connectionClosed
  | bytes line => lineText line

structure Session where
  address : Address
  limits : Limits
  channel : Channel

namespace Session

def send (s : Session) (data : List UInt8) : Session := { s with channel := s.channel.write data }

/-- Sends a command and takes the next line for its answer. -/
def query (s : Session) (command : String) : Except PrinterError String × Session :=
  let c := s.channel.write (commandLine command)
  let (heard, c) := c.readLine s.limits.read.millis
  (heard.answer, { s with channel := c })

/-- Queries one after another; a query that fails does not end the session. -/
def queries (s : Session) : List String → List (Except PrinterError String) × Session
  | [] => ([], s)
  | command :: commands =>
    let (answer, s) := s.query command
    let (answers, s) := queries s commands
    (answer :: answers, s)

end Session

/-- What a printer tells about itself in one session. -/
structure Info where
  identity : Identity
  status : Status
  settings : Settings

def Info.toJson (i : Info) : Json :=
  .object [("identity", i.identity.toJson), ("status", i.status.toJson),
    ("settings", i.settings.toJson)]

section Interview

variable {m : Type → Type} [Monad m]

/-- A way to ask a printer for a line. -/
abbrev Asking (m : Type → Type) := String → ExceptT PrinterError m String

def askIdentity (ask : Asking m) : ExceptT PrinterError m Identity := do
  let line ← ask hostIdentification
  MonadExcept.ofExcept ((Identity.parse line.toList).mapError ReplyFault.toError)

def askStatus (ask : Asking m) : ExceptT PrinterError m Status := do
  let line ← ask hostStatus
  MonadExcept.ofExcept ((Status.parse line.toList).mapError ReplyFault.toError)

def askSettings (ask : Asking m) : ExceptT PrinterError m Settings := do
  let line ← ask configDump
  MonadExcept.ofExcept ((Settings.parse line.toList).mapError Settings.Fault.toError)

/-- Asks for everything; the first failure ends the interview. -/
def interview (ask : Asking m) : ExceptT PrinterError m Info := do
  return ⟨← askIdentity ask, ← askStatus ask, ← askSettings ask⟩

end Interview

def Session.asking : Asking (StateM Session) := fun command => ExceptT.mk fun s => s.query command

end LabelFleet.Printer
