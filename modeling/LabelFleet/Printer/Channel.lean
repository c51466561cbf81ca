import LabelFleet.Printer.Emulator

/-! An open line to a printer. Bytes go both ways and keep their order. Time is counted in
milliseconds from the opening of the line and passes only while the client waits. -/
namespace LabelFleet.Printer

/-- What a scripted printer does when a line has arrived. -/
structure Cue where
  reply : List UInt8 := []
  /-- How long it takes the printer to reply. -/
  delay : Nat := 0
  hangsUp : Bool := false
deriving DecidableEq, Repr

inductive Peer
  | emulator (e : Emulator)
  /-- Follows the next cue when a line has arrived, and stays silent when there is none left. -/
  | script (cues : List Cue)
deriving DecidableEq, Repr

/-- What a wait for a line brings. -/
inductive Heard
  /-- A line with its line feed, or all that there is when the printer hangs up. -/
  | bytes (line : List UInt8)
  | silence
deriving DecidableEq, Repr

structure Channel where
  peer : Peer
  /-- The lines that a scripted printer has received. -/
  received : List (List UInt8) := []
  /-- The part of the next line that has been received. -/
  unfinished : List UInt8 := []
  /-- The bytes that the client has not read yet, and when they arrive. -/
  arriving : List (Nat × UInt8) := []
  /-- When the client learns that the printer has hung up. -/
  hungUp : Option Nat := none
  now : Nat := 0
deriving DecidableEq, Repr

def lineFeed : UInt8 := 10

/-- Cuts bytes into pieces as long as an emulated printer takes them at once. -/
def chunks : List UInt8 → List (List UInt8)
  | [] => []
  | b :: bytes =>
    (b :: bytes.take (Emulator.chunkSize - 1)) :: chunks (bytes.drop (Emulator.chunkSize - 1))
termination_by bytes => bytes.length
decreasing_by
  rw [List.length_drop, List.length_cons]
  omega

@[simp] theorem flatten_chunks (bytes : List UInt8) : (chunks bytes).flatten = bytes := by
  fun_induction chunks bytes with
  | case1 => rfl
  | case2 b bytes ih => rw [List.flatten_cons, ih, List.cons_append, List.take_append_drop]

/-- What is read up to and including the first line feed, and the rest. -/
def splitLine? : List (Nat × UInt8) → Option (List (Nat × UInt8) × List (Nat × UInt8))
  | [] => none
  | b :: bs =>
    if b.2 = lineFeed then some ([b], bs)
    else (splitLine? bs).map fun (line, rest) => (b :: line, rest)

namespace Channel

def lastArrival (start : Nat) (bytes : List (Nat × UInt8)) : Nat :=
  bytes.foldl (fun t b => max t b.1) start

/-- The printer follows a cue. It sends nothing before what it has sent already. -/
def follow (c : Channel) (cue : Cue) : Channel :=
  let time := lastArrival (c.now + cue.delay) c.arriving
  { c with
    arriving := c.arriving ++ cue.reply.map fun b => (time, b)
    hungUp := if cue.hangsUp then some time else c.hungUp }

/-- A line has arrived at a scripted printer. -/
def endLine (c : Channel) : Channel :=
  let heard := { c with received := c.received ++ [c.unfinished], unfinished := [] }
  match c.peer with
  | .script (cue :: cues) => { heard with peer := .script cues }.follow cue
  | _ => heard

/-- A byte arrives at a scripted printer; one that has hung up takes no more. -/
def takeByte (c : Channel) (b : UInt8) : Channel :=
  if c.hungUp.isSome then c
  else
    let c := { c with unfinished := c.unfinished ++ [b] }
    if b = lineFeed then c.endLine else c

def write (c : Channel) (data : List UInt8) : Channel :=
  match c.peer with
  | .emulator e =>
    let (e, reply) := e.receiveAll (chunks data)
    { c with peer := .emulator e }.follow { reply := Utf8.encode reply }
  | .script _ => data.foldl takeByte c

/-- The client has no more to write. What it has written of a line counts as a line. -/
def finish (c : Channel) : Channel :=
  if c.unfinished.isEmpty then c else c.endLine

/-- The client waits for a line. A part of a line that has arrived when the wait comes to its limit
is lost. -/
def readLine (c : Channel) (limit : Nat) : Heard × Channel :=
  let deadline := c.now + limit
  let arrived := c.arriving.takeWhile (·.1 ≤ deadline)
  let later := c.arriving.dropWhile (·.1 ≤ deadline)
  match splitLine? arrived with
  | some (line, rest) =>
    (.bytes (line.map Prod.snd),
      { c with arriving := rest ++ later, now := lastArrival c.now line })
  | none =>
    match c.hungUp with
    | some time =>
      if time ≤ deadline then
        (.bytes (arrived.map Prod.snd), { c with arriving := later, now := max c.now time })
      else (.silence, { c with arriving := later, now := deadline })
    | none => (.silence, { c with arriving := later, now := deadline })

end Channel

end LabelFleet.Printer
