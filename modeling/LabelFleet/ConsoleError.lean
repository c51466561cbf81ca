import LabelFleet.Config.Error
import LabelFleet.Printer.Error

/-! Errors of the console. A request can be at fault, the configuration, or a session with a
printer; failed probes and statements are no errors but answers. -/
namespace LabelFleet

inductive ConsoleError
  | badRequest (text : String)
  | unknownPrinter (id : String)
  | config (e : Config.Error)
  | printer (id : String) (e : PrinterError)

namespace ConsoleError

def message : ConsoleError → String
  | badRequest text => text
  | unknownPrinter id => s!"Unknown printer: {id}"
  | config e => s!"configuration error: {e.message}"
  | printer id e => s!"printer {id}: {e.message}"

/-- The one who asked is at fault. -/
def isClientError : ConsoleError → Bool
  | badRequest _ => true
  | unknownPrinter _ => true
  | config _ => false
  | printer .. => false

end ConsoleError

end LabelFleet
