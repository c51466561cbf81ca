import LabelFleet.CommandLine.Failure
import LabelFleet.Database.Console
import LabelFleet.Fleet
import LabelFleet.Health.Survey
import LabelFleet.Preview
import LabelFleet.Printer.Emulator
import LabelFleet.Sample

/-! Results of commands. A result says how the program ends, and what it prints as JSON. -/
namespace LabelFleet.CommandLine

inductive Response
  | html (document : String)
  | preview (p : Preview)
  | samples
  | live (v : Health.Live)
  | detailed (v : Health.Detailed)
  | report (v : Health.Report)
  | full (v : Health.Full)
  | preflight (s : Health.Snapshot)
  | fleet (printers : Table PrinterStatus)
  | presence (id : String) (p : Presence)
  | tested (id : String) (success : Bool)
  | printed (id : String) (success : Bool)
  | sent (command : String) (o : CommandOutcome)
  | catalogue
  | info (i : Printer.Info)
  | sql (o : Database.Outcome)
  /-- An emulated printer waits for clients. -/
  | listening (address : String) (e : Printer.Emulator)

def ExitStatus.ofVerdict : Health.Verdict → ExitStatus
  | .healthy => .success
  | .degraded => .failure

namespace Response

/-- How the program ends. Looking something up succeeds whatever is found. -/
def status : Response → ExitStatus
  | live v => .ofVerdict v.verdict
  | detailed v => .ofVerdict v.verdict
  | report v => .ofVerdict v.verdict
  | full v => .ofVerdict v.verdict
  | tested _ success => .ofSuccess success
  | printed _ success => .ofSuccess success
  | sent _ o => .ofSuccess o.success
  | sql o => .ofSuccess o.success
  | _ => .success

def sampleJson (s : Sample) : Json :=
  .object [("markup", .string s.markup), ("name", .string s.name)]

def listeningJson (address : String) (e : Printer.Emulator) : Json :=
  .object [("listening", .string address), ("model", .string e.model), ("name", .string e.name)]

/-- The result as JSON; a document stands for itself. -/
def toJson? : Response → Option Json
  | html _ => none
  | preview p => some p.toJson
  | samples => some (.array (Sample.all.map sampleJson))
  | live v => some v.toJson
  | detailed v => some v.toJson
  | report v => some v.toJson
  | full v => some v.toJson
  | preflight s => some s.toJson
  | fleet printers => some (.ofTable PrinterStatus.toJson printers)
  | presence _ p => some p.toJson
  | tested _ success => some (Health.checkJson success)
  | printed _ success => some (Health.checkJson success)
  | sent _ o => some o.toJson
  | catalogue => some Printer.catalogueJson
  | info i => some i.toJson
  | sql o => some o.toJson
  | listening address e => some (listeningJson address e)

end Response

end LabelFleet.CommandLine
