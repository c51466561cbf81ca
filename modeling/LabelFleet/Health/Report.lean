import LabelFleet.Calendar
import LabelFleet.Health.Snapshot
import LabelFleet.Table

/-! Four views of a snapshot: the live view with its metrics, the checks of each target, the report
with its counts, and the flat list of what can be reached. All of them take the verdict and the
success of each target from the snapshot. -/
namespace LabelFleet.Health

inductive Grade
  | good
  | warning
  | poor
deriving DecidableEq, Repr

def Grade.name : Grade → String
  | good => "good"
  | warning => "warning"
  | poor => "poor"

/-- Good below 50 ms and a warning below 100 ms. -/
def Grade.ofLatency (ms : Nat) : Grade :=
  if ms < 50 then good else if ms < 100 then warning else poor

structure Metrics where
  /-- Seconds since the process started. -/
  uptime : Float
  rssBytes : Nat
  virtualBytes : Nat

/-- The success of the targets of one kind; of results for one target the last one counts. -/
def flags (s : Snapshot) (k : TargetKind) : Table Bool :=
  .ofList ((s.ofKind k).map fun r => (r.target, r.success))

def checkJson (success : Bool) : Json := .object [("success", .bool success)]

structure Network where
  latencyMs : Nat
  grade : Grade
deriving DecidableEq, Repr

namespace Network

def ofSnapshot (s : Snapshot) : Network := ⟨s.latencyMs, .ofLatency s.latencyMs⟩

def toJson (n : Network) : Json :=
  .object [("latency_ms", .natural n.latencyMs), ("status", .string n.grade.name)]

end Network

/-- The verdict beside the state of the process. -/
structure Live where
  verdict : Verdict
  metrics : Metrics
  timestamp : Timestamp
  network : Network

namespace Live

def ofSnapshot (s : Snapshot) (metrics : Metrics) (time : Timestamp) : Live :=
  ⟨s.verdict, metrics, time, .ofSnapshot s⟩

def toJson (v : Live) : Json :=
  .object [("status", .string v.verdict.name), ("uptime", .number v.metrics.uptime),
    ("memory", .object [("rss_bytes", .natural v.metrics.rssBytes),
      ("virtual_bytes", .natural v.metrics.virtualBytes)]),
    ("timestamp", .string v.timestamp.text), ("network", v.network.toJson)]

end Live

structure Detailed where
  verdict : Verdict
  database : Table Bool
  printers : Table Bool

namespace Detailed

def ofSnapshot (s : Snapshot) : Detailed := ⟨s.verdict, flags s .database, flags s .printer⟩

def toJson (v : Detailed) : Json :=
  .object [("summary", .object [("overall_status", .string v.verdict.name)]),
    ("database", .ofTable checkJson v.database), ("printers", .ofTable checkJson v.printers)]

end Detailed

/-- The checks of each target, with their number and the time of the report. -/
structure Report where
  verdict : Verdict
  totalChecks : Nat
  passedChecks : Nat
  database : Table Bool
  printers : Table Bool
  generated : Timestamp

namespace Report

def ofSnapshot (s : Snapshot) (time : Timestamp) : Report :=
  ⟨s.verdict, s.total, s.passed, flags s .database, flags s .printer, time⟩

def toJson (v : Report) : Json :=
  .object [
    ("summary", .object [("overall_status", .string v.verdict.name),
      ("total_checks", .natural v.totalChecks), ("passed_checks", .natural v.passedChecks)]),
    ("details", .object [("database", .ofTable checkJson v.database),
      ("printers", .ofTable (fun b => .object [("connection", checkJson b)]) v.printers)]),
    ("recommendations", .array []),
    ("generated", .string v.generated.text)]

end Report

/-- What can be reached, and how fast. The verdict is not part of the printed view. -/
structure Full where
  verdict : Verdict
  database : Table Bool
  printers : Table Bool
  latencyMs : Nat

namespace Full

def ofSnapshot (s : Snapshot) : Full :=
  ⟨s.verdict, flags s .database, flags s .printer, s.latencyMs⟩

def toJson (v : Full) : Json :=
  .object [("database", .ofTable .bool v.database), ("printers", .ofTable .bool v.printers),
    ("network", .object [("latency_ms", .natural v.latencyMs)])]

end Full

end LabelFleet.Health
