import LabelFleet.Printer.Link
import LabelFleet.Timed

/-! A network of printers. Dialling takes its time and may fail; an emulated printer keeps what one
exchange has done to it for the next, and a scripted one starts over. -/
namespace LabelFleet.Printer

/-- Why a printer does not answer the dial, with the report of the operating system. -/
inductive DialFault
  | refused (cause : String)
  | failed (cause : String)
deriving DecidableEq, Repr

def DialFault.toError (a : Address) : DialFault → PrinterError
  | refused cause => .connectionRefused a.text cause
  | failed cause => .connectionFailed a.text cause

structure Network where
  lookup : String → Option Ip
  /-- What comes of dialling an endpoint. -/
  station : Endpoint → Timed (Except DialFault Peer)

namespace Network

def dial (n : Network) (a : Address) : Timed (Except PrinterError (Endpoint × Peer)) :=
  match a.resolve n.lookup with
  | .error e => .now (.error e)
  | .ok endpoint => (n.station endpoint).map fun answer =>
    (answer.mapError (·.toError a)).map fun peer => (endpoint, peer)

def connect (n : Network) (a : Address) (limit : Duration) :
    Timed (Except PrinterError (Endpoint × Peer)) :=
  (n.dial a).within limit.millis (.error (.connectionTimeout a.text limit))

/-- Dials an address for an exchange that may take the given time as a whole. -/
def openFor (n : Network) (a : Address) (limit : Duration) :
    Timed (Except PrinterError (Endpoint × Peer)) :=
  (n.dial a).within limit.millis (.error (.exchangeTimeout a.text limit))

def store (n : Network) (endpoint : Endpoint) : Peer → Network
  | .emulator e =>
    { n with
      station := fun other =>
        if other = endpoint then { n.station other with value := .ok (.emulator e) }
        else n.station other }
  | .script _ => n

def connectAll (n : Network) (addresses : List Address) (limit : Duration) :
    List (Except PrinterError Unit) :=
  addresses.map fun a => (n.connect a limit).value.map fun _ => ()

def sendLine (n : Network) (a : Address) (data : String) (limit : Duration) :
    Except PrinterError Unit × Network :=
  match (n.openFor a limit).value with
  | .error e => (.error e, n)
  | .ok (endpoint, peer) =>
    let c := (({ peer } : Channel).write (commandLine data)).finish
    (.ok (), n.store endpoint c.peer)

def sendCommand (n : Network) (a : Address) (command : String) (limit : Duration) :
    Except PrinterError (Option String) × Network :=
  let answer := n.openFor a limit
  match answer.value with
  | .error e => (.error e, n)
  | .ok (endpoint, peer) =>
    let c := ({ peer } : Channel).write (commandLine command)
    let (heard, c) := c.readLine (replyLimit limit (answer.waited limit.millis))
    (heard.reply, n.store endpoint c.finish.peer)

def openSession (n : Network) (address : String) (limits : Limits) :
    Except PrinterError (Endpoint × Session) := do
  let a ← Address.parse address
  let (endpoint, peer) ← (n.connect a limits.connect).value
  return (endpoint, ⟨a, limits, { peer }⟩)

def interview (n : Network) (address : String) (limits : Limits) :
    Except PrinterError Info × Network :=
  match n.openSession address limits with
  | .error e => (.error e, n)
  | .ok (endpoint, session) =>
    let (info, session) := (Printer.interview Session.asking).run session
    (info, n.store endpoint session.channel.finish.peer)

/-- The exchanges over this network; what they do to its printers is kept. -/
def link : Link (StateM Network) where
  connectAll addresses limit := fun n => (n.connectAll addresses limit, n)
  sendLine a data limit := fun n => n.sendLine a data limit
  sendCommand a command limit := fun n => n.sendCommand a command limit
  interview address limits := fun n => n.interview address limits

end Network

end LabelFleet.Printer
