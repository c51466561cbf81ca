import LabelFleet.Canvas.Html
import LabelFleet.CommandLine.Invocation
import LabelFleet.CommandLine.Response

/-! What the program prints: JSON for other programs, coloured text for people. -/
namespace LabelFleet.CommandLine

structure Output where
  out : String := ""
  err : String := ""
deriving DecidableEq, Repr

namespace Output

def append (a b : Output) : Output := ⟨a.out ++ b.out, a.err ++ b.err⟩

instance : Append Output := ⟨append⟩

def line (s : String) : Output := { out := s ++ "\n" }

def note (s : String) : Output := { err := s ++ "\n" }

def lines (ss : List String) : Output := { out := String.join (ss.map (· ++ "\n")) }

end Output

inductive Colour
  | red
  | green
  | yellow
  | cyan
  | white
deriving DecidableEq, Repr

def Colour.digit : Colour → Char
  | red => '1'
  | green => '2'
  | yellow => '3'
  | cyan => '6'
  | white => '7'

/-- A text in a colour of the terminal. -/
def coloured (c : Colour) (s : String) : String := s!"\x1b[3{c.digit}m{s}\x1b[0m"

def mark (success : Bool) : String := if success then coloured .green "✓" else coloured .red "✗"

def verdictText : Health.Verdict → String
  | .healthy => coloured .green Health.Verdict.healthy.name
  | .degraded => coloured .yellow Health.Verdict.degraded.name

def gradeText (g : Health.Grade) : String :=
  match g with
  | .good => coloured .green g.name
  | .warning => coloured .yellow g.name
  | .poor => coloured .red g.name

/-- A text filled up with blanks behind it. -/
def filled (width : Nat) (s : String) : String :=
  s ++ String.ofList (List.replicate (width - s.length) ' ')

/-- A fraction with one digit after the point; a tie goes to the even digit. -/
def tenths (num den : Nat) : String :=
  let n := Binary64.roundEven (10 * num) den
  String.ofList (Digits.ofNat (n / 10) ++ '.' :: Digits.ofNat (n % 10))

/-- Seconds with one digit after the point. -/
def seconds (x : Float) : String :=
  let (num, den) := Binary64.magnitude x
  tenths num den ++ " s"

def mebibytes (bytes : Nat) : String := tenths bytes (Nat.pow 2 20) ++ " MiB"

def milliseconds (n : Nat) : String := Digits.text n ++ " ms"

/-- One line of a list of checks. -/
def checkLine (kind target : String) (success : Bool) (detail : Option String) : String :=
  let tail := match detail with
    | some d => "  " ++ coloured .white d
    | none => ""
  s!"  {mark success} {filled 8 kind} {target}" ++ tail

/-- The verdict, and a line for each check. -/
def checklist (v : Health.Verdict) (checks : List String) : Output :=
  .lines (verdictText v :: checks)

def flagLines (database printers : Table Bool) : List String :=
  let of (kind : String) (t : Table Bool) := t.entries.map fun e => checkLine kind e.1 e.2 none
  of Health.TargetKind.database.name database ++ of Health.TargetKind.printer.name printers

def resultLine (r : Health.Result) : String :=
  checkLine r.kind.name r.target r.success (some (r.error.getD (milliseconds r.latencyMs)))

def errorNote (message : String) : Output :=
  let label := coloured .red "error"
  .note s!"{label}: {message}"

def previewDisplay : Preview → Output
  | .blank => .note "nothing to preview"
  | .controlCommand command =>
    let label := coloured .cyan "control command"
    .note s!"{label}: {command}"
  | .label r =>
    let count := coloured .cyan (Digits.text r.info.elementCount)
    Output.line r.tree.toJson.prettyText ++ .note s!"{count} element(s) ({r.info.summary})"

def elementCount (s : Sample) : Nat :=
  match Preview.ofMarkup {} s.markup with
  | .label r => r.info.elementCount
  | _ => 0

def sampleLine (s : Sample) : String :=
  let name := coloured .cyan s.name
  s!"{name} {Digits.text (elementCount s)} element(s)"

def liveLines (v : Health.Live) : List String :=
  let latency := milliseconds v.network.latencyMs
  [verdictText v.verdict, s!"  uptime   {seconds v.metrics.uptime}",
    s!"  memory   {mebibytes v.metrics.rssBytes} resident",
    s!"  latency  {latency} ({gradeText v.network.grade})", s!"  at       {v.timestamp.text}"]

def printerLine (id : String) (s : PrinterStatus) : String :=
  let t := s.target
  let place := s!"{t.host}:{Digits.text t.port.toNat}"
  s!"{mark s.reachable} {filled 10 id} {t.displayName} ({t.model}) {place}"

def presenceText : Presence → String
  | .online => coloured .green Presence.online.name
  | .offline => coloured .red Presence.offline.name

def infoLines (i : Printer.Info) : List String :=
  let name := coloured .cyan i.identity.name
  let text (x : Float) := String.ofList (Style.plain.text x)
  let word (n : UInt32) := Digits.text n.toNat
  [s!"{name} {i.identity.model} firmware {i.identity.firmware} serial {i.identity.serial}",
    s!"  state {i.status.state.name} jobs {Digits.text i.status.jobs}",
    s!"  {word i.settings.dpi} dpi, {text i.settings.width}x{text i.settings.length} in, " ++
      s!"darkness {word i.settings.darkness}, speed {word i.settings.speed}"]

def sqlDisplay (o : Database.Outcome) : Output :=
  match o.error with
  | some e => errorNote e
  | none =>
    let note : Output := match o.note with
      | some t => .line s!"{mark true} {t}"
      | none => {}
    match o.recordset with
    | some (.array rows) =>
      note ++ .lines (rows.map Json.compactText) ++ .note s!"{Digits.text rows.length} row(s)"
    | _ => note

def catalogueLines : List String :=
  [s!"host identification  {Printer.hostIdentification}",
    s!"host status          {Printer.hostStatus}", s!"ping                 {Printer.ping}",
    s!"config dump          {Printer.configDump}"]

def Response.display : Response → Output
  | html document => .line document
  | preview p => previewDisplay p
  | samples => .lines (Sample.all.map sampleLine)
  | live v => .lines (liveLines v)
  | detailed v => checklist v.verdict (flagLines v.database v.printers)
  | report v =>
    let counts := s!"{Digits.text v.passedChecks}/{Digits.text v.totalChecks}"
    checklist v.verdict (flagLines v.database v.printers ++
      [s!"  {counts} checks passed, generated {v.generated.text}"])
  | full v =>
    checklist v.verdict (flagLines v.database v.printers ++
      [s!"  latency  {milliseconds v.latencyMs}"])
  | preflight s => checklist s.verdict (s.results.map resultLine)
  | fleet printers => .lines (printers.entries.map fun e => printerLine e.1 e.2)
  | presence id p => .line s!"{id}: {presenceText p}"
  | tested id success => .line s!"{mark success} {id}"
  | printed id success => .line s!"{mark success} test label sent to {id}"
  | sent command o => .lines (s!"{mark o.success} {command}" :: o.response.toList)
  | catalogue => .lines catalogueLines
  | info i => .lines (infoLines i)
  | sql o => sqlDisplay o
  | listening address e =>
    let name := coloured .cyan e.name
    .line s!"{name} ({e.model}) listening on {address}"

def Response.output (format : Format) (r : Response) : Output :=
  match format, r.toJson? with
  | .json, some v => .line v.prettyText
  | _, _ => r.display

def usageText : String :=
  "Label preview and printer/database health console\n\n" ++
    "Usage: labelfleet [--output pretty|json] [--config FILE] [--log-json] COMMAND\n\n" ++
    "Commands:\n" ++
    "  preview [FILE|-] [--sample NAME] [--html]\n" ++
    "  samples\n" ++
    "  health [--detailed]\n" ++
    "  diagnose [--full]\n" ++
    "  preflight\n" ++
    "  printers status [ID] | test ID | test-print ID | send ID COMMAND | commands | info ID\n" ++
    "  sql test ALIAS | query --database NAME QUERY | tables ALIAS\n" ++
    "  emulate [--name NAME] [--model MODEL] [--bind ADDRESS]"

def Usage.output : Usage → Output
  | .help => .line usageText
  | .version => .line "labelfleet 0.1.0"
  | .wrong => .note usageText

def Failure.output (format : Format) (f : Failure) : Output :=
  match format with
  | .json => .line f.toJson.prettyText
  | .pretty => errorNote f.message

end LabelFleet.CommandLine
