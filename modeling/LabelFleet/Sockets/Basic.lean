import LabelFleet.Printer.Network
import Std.Async.DNS
import Std.Async.TCP
import Std.Async.Timer

/-! Sockets: what the operating system reports, how hosts are looked up, and how work is bounded in
time. -/
namespace LabelFleet.Sockets

open Std.Async

/-! ### Reports -/

/-- The number and the text of a report. -/
def report? : IO.Error → Option (UInt32 × String)
  | .alreadyExists _ n s | .invalidArgument _ n s | .permissionDenied _ n s
  | .resourceExhausted _ n s | .inappropriateType _ n s | .noSuchThing _ n s => some (n, s)
  | .interrupted _ n s | .noFileOrDirectory _ n s => some (n, s)
  | .otherError n s | .resourceBusy n s | .resourceVanished n s | .unsupportedOperation n s
  | .hardwareFault n s | .unsatisfiedConstraints n s | .illegalOperation n s
  | .protocolError n s | .timeExpired n s => some (n, s)
  | .unexpectedEof | .userError _ => none

/-- The number of a failure; some operations report it negated. -/
def errorNumber (n : UInt32) : Nat := min n.toNat (-n).toNat

/-- The text of a failure, where the system has a wording of its own for it. -/
def errorText (number : Nat) (s : String) : String :=
  match number with
  | 99 => "Cannot assign requested address"
  | 113 => "No route to host"
  | _ => s.capitalize

/-- The cause of a failure. -/
def causeOf (e : IO.Error) : String :=
  match report? e with
  | some (n, s) => s!"{errorText (errorNumber n) s} (os error {errorNumber n})"
  | none => toString e

/-- Nothing listens at the address. -/
def isRefusal (e : IO.Error) : Bool := (report? e).any fun (n, _) => errorNumber n == 111

/-! ### Time -/

def pause (milliseconds : Nat) : Async Unit := sleep (.ofNat milliseconds)

/-- Waits for an answer, and makes do with `late` when the time is over. -/
def within {α : Type} (milliseconds : Nat) (late : α) (work : Async α) : Async α :=
  haveI : Inhabited α := ⟨late⟩
  Async.race work (do pause milliseconds; return late)

/-- An answer and how long it took. One that is late counts as one that never comes. -/
def timed {α : Type} (milliseconds : Nat) (late : α) (work : Async α) : Async (Timed α) := do
  let start ← IO.monoMsNow
  within milliseconds ⟨none, late⟩ do
    let a ← work
    return ⟨some ((← IO.monoMsNow) - start), a⟩

/-! ### Addresses -/

def socketAddress (e : Endpoint) : Std.Net.SocketAddress :=
  match e.ip with
  | .v4 a b c d => .v4 ⟨.ofParts a b c d, e.port⟩
  | .v6 groups h => .v6 ⟨⟨groups.toArray, by simpa using h⟩, e.port⟩

def ipOf : Std.Net.IPAddr → Ip
  | .v4 a => .v4 a.octets[0] a.octets[1] a.octets[2] a.octets[3]
  | .v6 a => .v6 a.segments.toList (by simp)

def endpointOf : Std.Net.SocketAddress → Endpoint
  | .v4 a => ⟨ipOf (.v4 a.addr), a.port⟩
  | .v6 a => ⟨ipOf (.v6 a.addr), a.port⟩

/-- The first address of a host name. -/
def lookup (host : String) : Async (Option Ip) := do
  if '\x00' ∈ host.toList then return none
  try return (← DNS.getAddrInfo host "")[0]?.map ipOf
  catch _ => return none

/-- The endpoint of an address; only the name of a host is looked up. -/
def resolve (a : Address) : Async (Except PrinterError Endpoint) := do
  match a.resolve fun _ => none with
  | .ok endpoint => return .ok endpoint
  | .error _ =>
    let found ← lookup a.host
    return a.resolve fun _ => found

end LabelFleet.Sockets
