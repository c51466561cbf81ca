import LabelFleet.Sockets.Line

/-! Exchanges with printers over sockets. -/
namespace LabelFleet.Sockets

open Std.Async
open Printer

/-- Dials an address for as long as it takes. -/
def openLine (a : Address) : Async (Except PrinterError Line) := do
  match ← resolve a with
  | .error e => return .error e
  | .ok endpoint => return (← Line.dial endpoint).mapError (·.toError a)

def connect (a : Address) (limit : Duration) : Async (Except PrinterError Line) :=
  within limit.millis (.error (.connectionTimeout a.text limit)) (openLine a)

/-- Dials an address and hangs up. -/
def knock (a : Address) (limit : Duration) : Async (Except PrinterError Unit) := do
  return (← connect a limit).map fun _ => ()

def connectAll (addresses : List Address) (limit : Duration) :
    Async (List (Except PrinterError Unit)) := do
  return (← Async.concurrentlyAll (addresses.map fun a => knock a limit).toArray).toList

/-- Writes, and says what has failed. -/
def writeTo (l : Line) (bytes : List UInt8) : Async (Except PrinterError Unit) := do
  try
    l.write bytes
    return .ok ()
  catch e => return .error (.writeFailed (causeOf e))

def finish (l : Line) : Async (Except PrinterError Unit) := do
  try
    l.finish
    return .ok ()
  catch e => return .error (.writeFailed (causeOf e))

/-- Work that is bounded as a whole. -/
def exchange {α : Type} (a : Address) (limit : Duration) (milliseconds : Nat)
    (work : ExceptT PrinterError Async α) : ExceptT PrinterError Async α :=
  ExceptT.mk (within milliseconds (.error (.exchangeTimeout a.text limit)) work.run)

def sendLine (a : Address) (data : String) (limit : Duration) : Async (Except PrinterError Unit) :=
  (exchange a limit limit.millis do
    let l ← ExceptT.mk (openLine a)
    ExceptT.mk (writeTo l (commandLine data))
    ExceptT.mk (finish l)).run

def sendCommand (a : Address) (command : String) (limit : Duration) :
    Async (Except PrinterError (Option String)) := do
  let start ← IO.monoMsNow
  let go : ExceptT PrinterError Async (Option String) := do
    let l ← exchange a limit limit.millis do
      let l ← ExceptT.mk (openLine a)
      ExceptT.mk (writeTo l (commandLine command))
      return l
    let heard ← ExceptT.mk (l.readLine (replyLimit limit ((← IO.monoMsNow) - start)))
    let reply ← MonadExcept.ofExcept heard.reply
    discard (liftM (finish l))
    return reply
  go.run

/-- Sends small pieces at once, and finds out when the other side is gone. -/
def configure (l : Line) (interval : Duration) : IO Unit := do
  l.socket.noDelay
  match Std.Time.Second.Offset.ofNat (interval.millis / 1000) with
  | seconds => if h : seconds.val ≥ 0 then l.socket.keepAlive true seconds h

/-- Sends a command and takes the next line for its answer. -/
def query (l : Line) (limits : Limits) : Asking Async := fun command => do
  ExceptT.mk (within limits.write.millis (.error (.writeFailed "timed out"))
    (writeTo l (commandLine command)))
  let heard ← ExceptT.mk (l.readLine limits.read.millis)
  MonadExcept.ofExcept heard.answer

def interview (address : String) (limits : Limits) : Async (Except PrinterError Info) :=
  let go : ExceptT PrinterError Async Info := do
    let a ← MonadExcept.ofExcept (Address.parse address)
    let l ← ExceptT.mk (connect a limits.connect)
    ExceptT.mk do
      try
        configure l limits.keepalive
        return .ok ()
      catch e => return .error (.connectionFailed a.text (causeOf e))
    let info ← Printer.interview (query l limits)
    discard (liftM (finish l))
    return info
  go.run

def link : Link Async := { connectAll, sendLine, sendCommand, interview }

end LabelFleet.Sockets
