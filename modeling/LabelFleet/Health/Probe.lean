import LabelFleet.Duration
import LabelFleet.Json.Basic
import LabelFleet.Number.Digits
import LabelFleet.Timed

/-! Probes: each asks one target whether it answers. A probe gets its time limit and may keep to it
by itself; whoever runs it enforces the limit once more. -/
namespace LabelFleet.Health

inductive TargetKind
  | database
  | printer
deriving DecidableEq, Repr

def TargetKind.name : TargetKind → String
  | database => "database"
  | printer => "printer"

structure Result where
  kind : TargetKind
  /-- The nickname of the database or the id of the printer. -/
  target : String
  success : Bool
  latencyMs : Nat
  error : Option String
deriving DecidableEq, Repr

structure Probe where
  kind : TargetKind
  target : String
  /-- The answer under a time limit; a failure comes with its reason. -/
  check : Nat → Timed (Except String Unit)

/-- The reason given by every probe whose time has run out. -/
def timedOut (limit : Nat) : String := s!"timed out after {Digits.text limit} ms"

namespace Probe

/-- What is reported of a probe that has ended like this after `spent` milliseconds. -/
def report (p : Probe) (spent : Nat) (outcome : Except String Unit) : Result :=
  let latency := (Duration.ofMillis spent).boundedMillis
  match outcome with
  | .ok () => ⟨p.kind, p.target, true, latency, none⟩
  | .error reason => ⟨p.kind, p.target, false, latency, some reason⟩

/-- Runs the probe for at most `limit` milliseconds. -/
def run (limit : Nat) (p : Probe) : Timed Result :=
  ((p.check limit).within limit (.error (timedOut limit))).stamped.map fun (spent, outcome) =>
    p.report spent outcome

end Probe

def Result.toJson (r : Result) : Json :=
  .object ([("kind", .string r.kind.name), ("target", .string r.target),
    ("success", .bool r.success), ("latency_ms", .natural r.latencyMs)] ++
    r.error.toList.map fun e => ("error", .string e))

end LabelFleet.Health
