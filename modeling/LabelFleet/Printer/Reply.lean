import LabelFleet.Json.Basic
import LabelFleet.Printer.Error
import LabelFleet.Text.Blank
import LabelFleet.Text.Quoted

/-! Replies of a printer on one line: who it is, and how it is doing. The values are separated by
commas, and blanks around them do not count. -/
namespace LabelFleet.Printer

/-- What the print engine is doing. -/
inductive State
  | ready
  | printing
deriving DecidableEq, Repr

def State.name : State → String
  | ready => "READY"
  | printing => "PRINTING"

structure Identity where
  name : String
  model : String
  firmware : String
  serial : String
  state : State
deriving DecidableEq, Repr

structure Status where
  state : State
  /-- The jobs completed since the printer was switched on or reset. -/
  jobs : Nat
deriving DecidableEq, Repr

inductive ReplyFault
  | unknownState (text : List Char)
  | fieldCount (command : String) (expected found : Nat) (line : List Char)
  | missingStatus (field : List Char)
  | missingJobs (field : List Char)
  | badJobs (text : List Char)
deriving DecidableEq, Repr

def ReplyFault.message : ReplyFault → String
  | unknownState text => s!"state: unknown state {Text.quoted text}"
  | fieldCount command expected found line =>
    s!"{command}: expected {Digits.text expected} fields, got {Digits.text found} in " ++
      Text.quoted line
  | missingStatus field => s!"~HS: missing STATUS: in {Text.quoted field}"
  | missingJobs field => s!"~HS: missing JOBS: in {Text.quoted field}"
  | badJobs text => s!"~HS: cannot parse job count {Text.quoted text}"

def ReplyFault.toError (f : ReplyFault) : PrinterError := .malformedResponse f.message

/-- The values of a line without the blanks around them. -/
def fields (line : List Char) : List (List Char) :=
  (Text.pieces ',' (Text.trim line)).map Text.trim

def State.parse (s : List Char) : Except ReplyFault State :=
  let t := Text.trim s
  if t = "READY".toList then .ok ready
  else if t = "PRINTING".toList then .ok printing
  else .error (.unknownState t)

namespace Identity

def parse (line : List Char) : Except ReplyFault Identity :=
  match fields line with
  | [name, model, firmware, serial, state] => do
    return ⟨String.ofList name, String.ofList model, String.ofList firmware, String.ofList serial,
      ← State.parse state⟩
  | fs => .error (.fieldCount "~HI" 5 fs.length line)

def toJson (i : Identity) : Json :=
  .object [("name", .string i.name), ("model", .string i.model), ("firmware", .string i.firmware),
    ("serial", .string i.serial), ("state", .string i.state.name)]

end Identity

namespace Status

def parse (line : List Char) : Except ReplyFault Status :=
  match fields line with
  | [status, jobs] => do
    let state ←
      match Text.after? "STATUS:".toList status with
      | some s => State.parse s
      | none => .error (.missingStatus status)
    let count ←
      match Text.after? "JOBS:".toList jobs with
      | some s => .ok s
      | none => .error (.missingJobs jobs)
    match Digits.read (Nat.pow 2 64) count with
    | .ok n => return ⟨state, n⟩
    | .error _ => .error (.badJobs count)
  | fs => .error (.fieldCount "~HS" 2 fs.length line)

/-- The printer can take a new label. -/
def isReady (s : Status) : Bool := s.state == .ready

def text (s : Status) : String := s!"STATUS:{s.state.name},JOBS:{Digits.text s.jobs}"

def toJson (s : Status) : Json :=
  .object [("state", .string s.state.name), ("jobs_printed", .natural s.jobs)]

end Status

end LabelFleet.Printer
