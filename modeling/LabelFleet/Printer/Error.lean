import LabelFleet.Duration

/-! What can go wrong between the console and a printer. -/
namespace LabelFleet

inductive PrinterError
  | connectionRefused (address cause : String)
  | connectionTimeout (address : String) (limit : Duration)
  | connectionFailed (address cause : String)
  | connectionClosed
  | invalidAddress (text : String)
  | noAddressFound (host : String)
  | writeFailed (cause : String)
  | readFailed (cause : String)
  | readTimeout
  | exchangeTimeout (address : String) (limit : Duration)
  | malformedResponse (details : String)
  | bind (address cause : String)
deriving DecidableEq, Repr

namespace PrinterError

def message : PrinterError → String
  | connectionRefused address _ => s!"connection refused: {address}"
  | connectionTimeout address limit => s!"connection timed out: {address} ({limit.text})"
  | connectionFailed address _ => s!"connection failed: {address}"
  | connectionClosed => "connection closed by printer"
  | invalidAddress text => s!"invalid address: {text}"
  | noAddressFound host => s!"no address found for hostname: {host}"
  | writeFailed cause => s!"write failed: {cause}"
  | readFailed cause => s!"read failed: {cause}"
  | readTimeout => "read timed out waiting for response"
  | exchangeTimeout address limit => s!"exchange with {address} timed out after {limit.text}"
  | malformedResponse details => s!"malformed response: {details}"
  | bind address _ => s!"cannot bind {address}"

/-- The failure of the operating system behind the error. -/
def cause? : PrinterError → Option String
  | connectionRefused _ cause => some cause
  | connectionFailed _ cause => some cause
  | writeFailed cause => some cause
  | readFailed cause => some cause
  | bind _ cause => some cause
  | _ => none

/-- A time limit passed, and no failure was reported by the other side. -/
def isTimeout : PrinterError → Bool
  | connectionTimeout .. => true
  | readTimeout => true
  | exchangeTimeout .. => true
  | _ => false

end PrinterError

end LabelFleet
