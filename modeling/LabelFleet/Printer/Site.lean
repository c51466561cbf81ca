import LabelFleet.Join
import LabelFleet.Printer.Link

/-! Sites. Of the printers at a site nothing is known but what comes of each exchange with them, and
that may depend on every exchange that was begun before. -/
namespace LabelFleet.Printer

/-- An exchange that is begun with the printer at an address. -/
inductive Attempt
  | dial (a : Address)
  | line (a : Address) (text : String)
  | command (a : Address) (command : String)
  | interview (address : String)
deriving DecidableEq, Repr

/-- What comes of an exchange after those that were begun before it. -/
structure Site where
  dial : List Attempt → Address → Timed (Except PrinterError Unit)
  line : List Attempt → Address → String → Duration → Except PrinterError Unit
  command : List Attempt → Address → String → Duration → Except PrinterError (Option String)
  interview : List Attempt → String → Limits → Except PrinterError Info

namespace Site

variable (s : Site)

/-- Dials an address and hangs up. -/
def connect (log : List Attempt) (a : Address) (limit : Duration) :
    Timed (Except PrinterError Unit) :=
  (s.dial log a).within limit.millis (.error (.connectionTimeout a.text limit))

/-- Dials that are begun one after the other, without waiting for any of them. -/
def connects (s : Site) (limit : Duration) (log : List Attempt) :
    List Address → List (Timed (Except PrinterError Unit))
  | [] => []
  | a :: addresses => s.connect log a limit :: s.connects limit (log ++ [.dial a]) addresses

/-- The exchanges at this site. What is begun is kept in a log. -/
def link : Link (StateM (List Attempt)) where
  connectAll addresses limit := fun log =>
    ((Join.start (s.connects limit log addresses)).run.values, log ++ addresses.map .dial)
  sendLine a text limit := fun log => (s.line log a text limit, log ++ [.line a text])
  sendCommand a command limit := fun log =>
    (s.command log a command limit, log ++ [.command a command])
  interview address limits := fun log =>
    (s.interview log address limits, log ++ [.interview address])

end Site

end LabelFleet.Printer
