import LabelFleet.CommandLine.Run
import LabelFleet.Sockets.Database
import LabelFleet.Sockets.Emulator
import LabelFleet.Sockets.Printers
import Std.Async.Signal

/-! The program. It runs the command that its arguments name, in the world of files, sockets and
clocks. -/
namespace LabelFleet

open Std.Async
open CommandLine (World)

def decodedText (bytes : ByteArray) : Except String String :=
  match Utf8.decode bytes.toList with
  | .ok s => .ok (String.ofList s)
  | .error _ => .error "stream did not contain valid UTF-8"

def readText (bytes : IO ByteArray) : Async (Except String String) := do
  try return decodedText (← bytes)
  catch e => return .error (Sockets.causeOf e)

def isFile (path : String) : IO Bool := do
  try return (← (← IO.FS.realPath path).metadata).type == .file
  catch _ => return false

/-- Reads the file at a path, or else the one whose name has the usual ending behind it. Bytes that
are no text do no harm. -/
def readSettings (path : String) : Async Config.File := do
  let some found ← [path, path ++ ".toml"].findM? fun p => isFile p | return .missing path
  try return .text (String.ofList (Utf8.lossy (← IO.FS.readBinFile found).toList))
  catch e => return .unreadable (Sockets.causeOf e)

/-- The variables of the environment that the configuration takes. -/
def readEnvironment : Async (String → Option String) := do
  let found ← Config.environmentOverrides.mapM fun (name, _) => do return (name, ← IO.getEnv name)
  return fun name => (found.lookup name).join

def survey (c : Config) (limit : UInt64) : Async Health.Snapshot := do
  let milliseconds := limit.toNat
  let late (t : PrinterTarget) : Except PrinterError Unit :=
    .error (.connectionTimeout t.address.text (.ofMillis milliseconds))
  let ping := Sockets.runCall c ⟨c.database.name, "SELECT 1"⟩
  let knock (t : PrinterTarget) : Async (String × Timed (Except PrinterError Unit)) := do
    let dialled := Sockets.knock t.address (.ofMillis milliseconds)
    return (t.id, ← Sockets.timed milliseconds (late t) dialled)
  let (answer, dials) ← Async.concurrently (Sockets.timed milliseconds (.ok ⟨[], []⟩) ping)
    (Async.concurrentlyAll (c.printerTargets.map knock).toArray)
  let dial : Health.Dial := fun t _ => (dials.toList.lookup t.id).getD (.now (late t))
  let answer := answer.map fun r => r.mapError Database.Server.pingError
  return Health.survey c (.constant answer) dial limit

/-- How many bytes of memory make up a page. -/
def pageSize : Nat := 4096

/-- What the process uses, given when it was started. -/
def readMetrics (start : Nat) : Async Health.Metrics := do
  let uptime := Float.ofNat ((← IO.monoNanosNow) - start) / 1000000000
  let pages ← do
    try pure (((← IO.FS.readFile "/proc/self/statm").splitOn " ").map fun s => s.toNat?.getD 0)
    catch _ => pure []
  return ⟨uptime, pages.getD 1 0 * pageSize, pages.getD 0 0 * pageSize⟩

/-- The world, given when the process was started and a place to note that an emulated printer
listens. -/
def world (start : Nat) (listening : IO.Ref Bool) : World Async where
  isTerminal := do (← IO.getStdout).isTty
  environment := readEnvironment
  settings := readSettings
  readFile path := readText (IO.FS.readBinFile path)
  readInput := do
    let input ← IO.getStdin
    readText input.readBinToEnd
  link := Sockets.link
  survey := survey
  query := Sockets.runCallInTime
  metrics := readMetrics start
  now := do return ⟨(← Std.Time.Timestamp.now).toMillisecondsSinceUnixEpoch.val⟩
  emulate e text := do
    listening.set true
    Sockets.emulate e text

def awaitInterrupt : IO Unit := do
  let interrupt ← Signal.Waiter.mk .sigint false
  discard (IO.ofExcept (← IO.wait (← interrupt.wait)))

end LabelFleet

open LabelFleet in
def main (args : List String) : IO UInt32 := do
  let listening ← IO.mkRef false
  let (output, status) ← (CommandLine.run (world (← IO.monoNanosNow) listening) args).block
  let out ← IO.getStdout
  let err ← IO.getStderr
  out.putStr output.out
  out.flush
  err.putStr output.err
  err.flush
  if (← listening.get) && status == .success then awaitInterrupt
  return status.code.toUInt32
