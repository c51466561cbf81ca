import LabelFleet.Sockets.Basic

/-! Open lines: sockets with the bytes that have arrived on them and are not read yet. -/
namespace LabelFleet.Sockets

open Std.Async
open Printer (DialFault Heard lineFeed)

structure Line where
  socket : TCP.Socket.Client
  unread : IO.Ref (List UInt8)

namespace Line

def faultOf (e : IO.Error) : DialFault :=
  if isRefusal e then .refused (causeOf e) else .failed (causeOf e)

def dial (endpoint : Endpoint) : Async (Except DialFault Line) := do
  try
    let socket ← TCP.Socket.Client.mk
    socket.connect (socketAddress endpoint)
    return .ok ⟨socket, ← IO.mkRef []⟩
  catch e => return .error (faultOf e)

def write (l : Line) (bytes : List UInt8) : Async Unit := l.socket.send bytes.toByteArray

/-- Says that no more will be written. -/
def finish (l : Line) : Async Unit := l.socket.shutdown

def chunkSize : UInt64 := 4096

/-- What arrives next, or nothing when the other side has hung up. -/
def receive (l : Line) : Async (List UInt8) := do
  return ((← l.socket.recv? chunkSize).map ByteArray.toList).getD []

/-- What arrives next, until the given moment. -/
def receiveUntil (l : Line) (deadline : Nat) : Async (Option (List UInt8)) := do
  let pause ← Selector.sleep (.ofNat (deadline - (← IO.monoMsNow)))
  Selectable.one #[
    .case (l.socket.recvSelector chunkSize) fun bytes =>
      return some ((bytes.map ByteArray.toList).getD []),
    .case pause fun _ => return none]

/-- Reads up to and including a line feed, until the given moment. -/
partial def readUntil (l : Line) (deadline : Nat) : Async Heard := do
  let unread ← l.unread.get
  let line := unread.takeWhile (· ≠ lineFeed)
  match unread.dropWhile (· ≠ lineFeed) with
  | b :: rest =>
    l.unread.set rest
    return .bytes (line ++ [b])
  | [] =>
    match ← l.receiveUntil deadline with
    | none => l.unread.set []; return .silence
    | some [] => l.unread.set []; return .bytes line
    | some more => l.unread.set (unread ++ more); l.readUntil deadline

def readLine (l : Line) (milliseconds : Nat) : Async (Except PrinterError Heard) := do
  try return .ok (← l.readUntil ((← IO.monoMsNow) + milliseconds))
  catch e => return .error (.readFailed (causeOf e))

/-- Reads so many bytes; there are none if the other side hangs up before. -/
partial def take? (l : Line) (count : Nat) : Async (Option (List UInt8)) := do
  let unread ← l.unread.get
  if count ≤ unread.length then
    l.unread.set (unread.drop count)
    return some (unread.take count)
  match ← l.receive with
  | [] => return none
  | more => l.unread.set (unread ++ more); l.take? count

end Line

end LabelFleet.Sockets
