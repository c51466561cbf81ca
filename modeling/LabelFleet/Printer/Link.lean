import LabelFleet.Printer.Session

/-! The exchanges that the console has with printers, as a record of operations. The services of the
console are written over any such record, so that they serve sockets and a modelled network alike.
-/
namespace LabelFleet.Printer

/-- Each exchange opens a line of its own and closes it. -/
structure Link (m : Type → Type) where
  /-- Dials several printers at once. The answers are in the order of the addresses. -/
  connectAll : List Address → Duration → m (List (Except PrinterError Unit))
  /-- Sends a text and a line feed. -/
  sendLine : Address → String → Duration → m (Except PrinterError Unit)
  /-- Sends a command and waits for a line of reply, though not longer than the reply window. -/
  sendCommand : Address → String → Duration → m (Except PrinterError (Option String))
  /-- Asks a printer about itself. The address is given as a text. -/
  interview : String → Limits → m (Except PrinterError Info)

def Link.connect {m : Type → Type} [Monad m] (link : Link m) (a : Address) (limit : Duration) :
    m (Except PrinterError Unit) := do
  match ← link.connectAll [a] limit with
  | answer :: _ => return answer
  | [] => return .error (.connectionTimeout a.text limit)

/-- How long the reply to a command is waited for when connecting has taken `spent` milliseconds of
the limit. -/
def replyLimit (limit : Duration) (spent : Nat) : Nat :=
  min (limit.millis - spent) replyWindow.millis

/-- The reply that a wait for a line brings; a printer need not reply. -/
def Heard.reply : Heard → Except PrinterError (Option String)
  | silence => .ok none
  | bytes [] => .ok none
  | bytes line => (lineText line).map some

end LabelFleet.Printer
