import LabelFleet.Printer.Emulator
import LabelFleet.Sockets.Line

/-! An emulated printer that listens for clients. All clients share the one printer. -/
namespace LabelFleet.Sockets

open Std.Async
open Printer (Emulator)

/-- Answers what a client sends, chunk by chunk, until it hangs up. -/
partial def serve (printer : IO.Ref Emulator) (client : TCP.Socket.Client) : Async Unit := do
  let some chunk ← client.recv? (UInt64.ofNat Emulator.chunkSize) | return
  let reply ← printer.modifyGet fun e =>
    let (e, reply) := e.receive chunk.toList
    (reply, e)
  if let some reply := reply then client.send reply.toUTF8
  serve printer client

/-- Takes clients, each by itself. One that fails does not disturb the others. -/
partial def accept (printer : IO.Ref Emulator) (server : TCP.Socket.Server) : Async Unit := do
  let client ← server.accept
  background do
    try serve printer client
    catch _ => return
  accept printer server

/-- The endpoint of a text with a port; it may start with the name of a host. -/
def bindEndpoint (text : String) : Async (Except String Endpoint) := do
  let s := text.toList
  match Endpoint.parse? s, Text.splitLast? ':' s with
  | some endpoint, _ => return .ok endpoint
  | none, none => return .error "invalid socket address"
  | none, some (host, port) =>
    match Address.port? port with
    | none => return .error "invalid port value"
    | some port =>
      match ← resolve ⟨String.ofList host, port⟩ with
      | .ok endpoint => return .ok endpoint
      | .error _ => return .error "failed to lookup address information: Name or service not known"

/-- Lets a printer listen, and returns its address. -/
def emulate (e : Emulator) (text : String) : Async (Except PrinterError String) := do
  match ← bindEndpoint text with
  | .error cause => return .error (.bind text cause)
  | .ok endpoint =>
    try
      let server ← TCP.Socket.Server.mk
      server.bind (socketAddress endpoint)
      server.listen 1024
      let printer ← IO.mkRef e
      background (accept printer server)
      return .ok (String.ofList (endpointOf (← server.getSockName)).text)
    catch failure => return .error (.bind text (causeOf failure))

end LabelFleet.Sockets
