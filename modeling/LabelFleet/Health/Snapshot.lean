import LabelFleet.Health.Probe
import LabelFleet.Join

/-! Snapshots of health. All probes start at once; the snapshot is complete when the slowest of them
has answered or run out of time. -/
namespace LabelFleet.Health

inductive Verdict
  | healthy
  | degraded
deriving DecidableEq, Repr

def Verdict.name : Verdict → String
  | healthy => "HEALTHY"
  | degraded => "DEGRADED"

def Verdict.ofResults (results : List Result) : Verdict :=
  if results.all Result.success then healthy else degraded

structure Snapshot where
  /-- One result for each probe, in the order of the probes. -/
  results : List Result
  /-- How long all of them took together. -/
  elapsed : Duration
deriving DecidableEq, Repr

namespace Snapshot

def verdict (s : Snapshot) : Verdict := .ofResults s.results

def total (s : Snapshot) : Nat := s.results.length

def passed (s : Snapshot) : Nat := s.results.countP Result.success

def ofKind (s : Snapshot) (k : TargetKind) : List Result := s.results.filter (·.kind == k)

def get? (s : Snapshot) (k : TargetKind) (target : String) : Option Result :=
  (s.ofKind k).find? (·.target == target)

def elapsedMs (s : Snapshot) : Nat := s.elapsed.boundedMillis

def latencies (s : Snapshot) : List Nat := (s.results.filter Result.success).map Result.latencyMs

/-- The mean of a list of numbers that is not empty, rounded to the nearest integer; a half goes up.
The numbers are added up in 64 bits. -/
def mean (ns : List Nat) : Nat :=
  let sum : UInt64 := ns.foldl (fun sum n => sum + UInt64.ofNat n) 0
  (sum + UInt64.ofNat (ns.length / 2)).toNat / ns.length

/-- The mean latency of the successful probes, or the elapsed time if there is none. -/
def latencyMs (s : Snapshot) : Nat :=
  if s.latencies.isEmpty then s.elapsedMs else mean s.latencies

/-- Runs all probes at once, each for at most `limit` milliseconds. -/
def take (limit : Nat) (probes : List Probe) : Snapshot :=
  let joined := (Join.start (probes.map (Probe.run limit))).run
  ⟨joined.values, .ofMillis joined.clock⟩

def toJson (s : Snapshot) : Json := .object [("results", .array (s.results.map Result.toJson))]

end Snapshot

end LabelFleet.Health
