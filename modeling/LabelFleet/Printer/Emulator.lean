import LabelFleet.Json.Text
import LabelFleet.Printer.Reply
import LabelFleet.Text.Utf8

/-! A printer that exists only in memory. It answers chunks of text as they arrive and counts the
labels it has finished. -/
namespace LabelFleet.Printer

/-- What a chunk asks for. -/
inductive Request
  /-- A label starts and does not end. -/
  | opening
  | completing
  | identity
  | status
  | settings
  | ping
  | other
deriving DecidableEq, Repr

/-- The start of the chunk decides; only the end of a label and a ping may stand anywhere. -/
def Request.ofChunk (chunk : List Char) : Request :=
  if Text.begins "^XA".toList chunk then
    if Text.occurs "^XZ".toList chunk then completing else opening
  else if Text.begins "^XZ".toList chunk then completing
  else if Text.begins "~HI".toList chunk then identity
  else if Text.begins "~HS".toList chunk then status
  else if Text.begins "^WD".toList chunk then settings
  else if Text.occurs "PING".toList (chunk.map Char.toUpper) then ping
  else other

structure Emulator where
  name : String
  model : String
  state : State := .ready
  /-- The labels finished since the start or the last reset, counted in 64 bits. -/
  jobs : UInt64 := 0
  lastCommand : Option String := none
deriving DecidableEq, Repr

namespace Emulator

def status (e : Emulator) : Status := ⟨e.state, e.jobs.toNat⟩

def identityLine (e : Emulator) : String := s!"{e.name},{e.model},V1.0,12345,{e.state.name}\n"

def statusLine (e : Emulator) : String := s!"{e.status.text}\n"

/-- The settings, with numbers written as strings. -/
def settingsJson (e : Emulator) : Json :=
  .object [("darkness", .string "10"), ("dpi", .string "203"), ("length", .string "6.00"),
    ("model", .string e.model), ("name", .string e.name), ("speed", .string "2"),
    ("width", .string "4.00")]

def settingsLine (e : Emulator) : String := s!"{e.settingsJson.compactText}\n"

def completedLine (jobs : Nat) : String := s!"JOB COMPLETED: {Digits.text jobs}\n"

/-- The printer after a chunk of the given kind. -/
def apply (e : Emulator) : Request → Emulator
  | .opening => { e with state := .printing }
  | .completing => { e with state := .ready, jobs := e.jobs + 1 }
  | _ => e

/-- The answer to a chunk of the given kind; a label that has only started is not answered. -/
def reply (e : Emulator) : Request → Option String
  | .opening => none
  | .completing => some (completedLine (e.jobs + 1).toNat)
  | .identity => some e.identityLine
  | .status => some e.statusLine
  | .settings => some e.settingsLine
  | .ping => some "PONG\n"
  | .other => some "OK\n"

def respond (e : Emulator) (chunk : String) : Emulator × Option String :=
  let request := Request.ofChunk chunk.toList
  ({ e.apply request with lastCommand := some chunk }, e.reply request)

/-- The most bytes that an emulated printer takes at once. -/
def chunkSize : Nat := 1024

def receive (e : Emulator) (chunk : List UInt8) : Emulator × Option String :=
  e.respond (String.ofList (Utf8.lossy chunk))

/-- Takes chunks of bytes one after another. The replies follow each other without a gap. -/
def receiveAll (e : Emulator) : List (List UInt8) → Emulator × List Char
  | [] => (e, [])
  | chunk :: chunks =>
    let (e, reply) := e.receive chunk
    let (e, replies) := receiveAll e chunks
    (e, (reply.getD "").toList ++ replies)

/-- Forgets the finished labels and the one that has started. -/
def reset (e : Emulator) : Emulator := { e with jobs := 0, state := .ready }

/-- What can be done to an emulated printer. -/
inductive Operation
  | send (chunk : String)
  | reset
deriving DecidableEq, Repr

/-- The printer after an operation, and the answer to it; a reset has none. -/
def perform (e : Emulator) : Operation → Emulator × Option String
  | .send chunk => e.respond chunk
  | .reset => (e.reset, none)

def step (e : Emulator) (operation : Operation) : Emulator := (e.perform operation).1

def run (e : Emulator) (history : List Operation) : Emulator := history.foldl step e

def toJson (e : Emulator) : Json :=
  .object [("name", .string e.name), ("model", .string e.model), ("status", .string e.state.name),
    ("jobs_printed", .natural e.jobs.toNat), ("last_command", .optional .string e.lastCommand)]

end Emulator

end LabelFleet.Printer
