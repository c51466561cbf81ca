import LabelFleet.Config.Target
import LabelFleet.ConsoleError
import LabelFleet.Health.Report
import LabelFleet.Printer.Link

/-! What operators do with the printers of a fleet. Only a request that names no configured printer,
or sends no command, is refused, and then no printer is dialled; a printer that cannot be reached is
an answer. A session in which a printer tells about itself may fail. -/
namespace LabelFleet

/-- A printer of the fleet and whether it can be reached. -/
structure PrinterStatus where
  target : PrinterTarget
  reachable : Bool
deriving DecidableEq, Repr

def PrinterStatus.toJson (s : PrinterStatus) : Json :=
  .object (s.target.members ++ [("connection", Health.checkJson s.reachable)])

inductive Presence
  | online
  | offline
deriving DecidableEq, Repr

namespace Presence

def ofReachable (reachable : Bool) : Presence := if reachable then online else offline

def name : Presence → String
  | online => "online"
  | offline => "offline"

/-- The look-up itself has succeeded, whatever it found. -/
def toJson (p : Presence) : Json := .object [("success", .bool true), ("status", .string p.name)]

end Presence

structure CommandOutcome where
  success : Bool
  response : Option String
deriving DecidableEq, Repr

namespace CommandOutcome

def ofReply : Except PrinterError (Option String) → CommandOutcome
  | .ok response => ⟨true, response⟩
  | .error _ => ⟨false, none⟩

def toJson (o : CommandOutcome) : Json :=
  .object (("success", .bool o.success) :: Printer.replyMembers o.response)

end CommandOutcome

structure Fleet (m : Type → Type) where
  config : Config
  link : Printer.Link m

namespace Fleet

variable {m : Type → Type} [Monad m] (fleet : Fleet m)

def lookup (id : String) : ExceptT ConsoleError m PrinterTarget :=
  match fleet.config.printer? id with
  | some t => pure t
  | none => throw (.unknownPrinter id)

/-- A time limit of the configuration. -/
def limit (field : Config.Timeouts → UInt64) : Duration :=
  .ofMillis (field fleet.config.timeouts).toNat

/-- All printers. They are dialled at once, and each is reported under its own id. -/
def statusAll : m (Table PrinterStatus) := do
  let targets := fleet.config.printerTargets
  let addresses := targets.map PrinterTarget.address
  let answers ← fleet.link.connectAll addresses (fleet.limit (·.printerTest))
  return .ofList (targets.zipWith (fun t answer => (t.id, ⟨t, answer.isOk⟩)) answers)

def test (id : String) : ExceptT ConsoleError m Bool := do
  let t ← fleet.lookup id
  return (← fleet.link.connect t.address (fleet.limit (·.printerTest))).isOk

def presence (id : String) : ExceptT ConsoleError m Presence := do
  return .ofReachable (← fleet.test id)

def testPrint (id : String) : ExceptT ConsoleError m Bool := do
  let t ← fleet.lookup id
  return (← fleet.link.sendLine t.address Printer.testLabel (fleet.limit (·.testPrint))).isOk

def sendCommand (id command : String) : ExceptT ConsoleError m CommandOutcome := do
  let t ← fleet.lookup id
  if Text.allBlank command.toList then throw (.badRequest "Empty command")
  return .ofReply (← fleet.link.sendCommand t.address command (fleet.limit (·.command)))

def info (id : String) : ExceptT ConsoleError m Printer.Info := do
  let t ← fleet.lookup id
  match ← fleet.link.interview t.address.text (.uniform (fleet.limit (·.printerTest))) with
  | .ok i => return i
  | .error e => throw (.printer id e)

/-- What is asked of one printer. -/
inductive Request
  | test (id : String)
  | presence (id : String)
  | testPrint (id : String)
  | send (id command : String)
  | info (id : String)
deriving DecidableEq, Repr

inductive Answer
  | reachable (success : Bool)
  | presence (p : Presence)
  | printed (success : Bool)
  | sent (o : CommandOutcome)
  | info (i : Printer.Info)

def serve : Request → ExceptT ConsoleError m Answer
  | .test id => return .reachable (← fleet.test id)
  | .presence id => return .presence (← fleet.presence id)
  | .testPrint id => return .printed (← fleet.testPrint id)
  | .send id command => return .sent (← fleet.sendCommand id command)
  | .info id => return .info (← fleet.info id)

end Fleet

end LabelFleet
