import LabelFleet.ConsoleError
import LabelFleet.Json.Text

/-! Commands that end without a result, and how the program ends. A failure is told with all its
causes; only one that the operator can mend by asking differently counts as an error of the request.
-/
namespace LabelFleet

/-- The errors behind an error, outermost first, with the error itself. -/
def PrinterError.chain (e : PrinterError) : List String := e.message :: e.cause?.toList

def ConsoleError.chain : ConsoleError → List String
  | e@(.config c) => [e.message, c.message]
  | e@(.printer _ p) => e.message :: p.chain
  | e => [e.message]

namespace CommandLine

inductive ExitStatus
  | success
  | failure
  | badRequest
deriving DecidableEq, Repr

def ExitStatus.code : ExitStatus → UInt8
  | success => 0
  | failure => 1
  | badRequest => 2

def ExitStatus.ofSuccess (success : Bool) : ExitStatus := if success then .success else .failure

inductive Failure
  | request (e : ConsoleError)
  | configuration (e : ConsoleError)
  | unreadable (what cause : String)
  | emulator (e : PrinterError)

namespace Failure

/-- All that is known about the failure, outermost first. -/
def chain : Failure → List String
  | request e => e.chain
  | configuration e => "failed to load configuration" :: e.chain
  | unreadable what cause => [s!"failed to read {what}", cause]
  | emulator e => "failed to start emulator" :: e.chain

def message (f : Failure) : String := ": ".intercalate f.chain

/-- The error of the console behind the failure. -/
def consoleError? : Failure → Option ConsoleError
  | request e => some e
  | configuration e => some e
  | _ => none

def status (f : Failure) : ExitStatus :=
  if f.consoleError?.any ConsoleError.isClientError then .badRequest else .failure

/-- The failure as a result of its own. -/
def toJson (f : Failure) : Json :=
  .object [("error", .string f.message), ("success", .bool false)]

end Failure

end CommandLine

end LabelFleet
