import LabelFleet.Canvas.Html
import LabelFleet.CommandLine.Display
import LabelFleet.Config.Load

/-! Running a command. What a command needs from the world around the program is a record of
operations; commands are written over any such record. -/
namespace LabelFleet.CommandLine

structure World (m : Type → Type) where
  isTerminal : m Bool
  environment : m (String → Option String)
  /-- The text of a file of settings. -/
  settings : String → m Config.File
  /-- The text of a file, or the reason why it cannot be read. -/
  readFile : String → m (Except String String)
  readInput : m (Except String String)
  link : Printer.Link m
  /-- Probes every target of a configuration, each within the limit. -/
  survey : Config → UInt64 → m Health.Snapshot
  /-- Sends a statement to a database of the configured server and waits for the rows. -/
  query : Config → Database.Call → m (Timed (Except Database.Error Database.ResultSet))
  metrics : m Health.Metrics
  now : m Timestamp
  /-- Lets an emulated printer listen, and returns its address. -/
  emulate : Printer.Emulator → String → m (Except PrinterError String)

/-- The page of a preview: a placeholder where there is no label. -/
def previewPage : Preview → String
  | .label r => r.toHtmlDocument
  | .controlCommand command =>
    (Canvas.Tree.placeholder s!"Control command: {command}").toHtml
  | .blank => (Canvas.Tree.placeholder Canvas.noContent).toHtml

section

variable {m : Type → Type} [Monad m] (w : World m)

def markup : MarkupSource → ExceptT Failure m String
  | .sample name =>
    match Sample.find? name with
    | some s => return s.markup
    | none => throw (.request (.badRequest s!"Unknown sample: {name}"))
  | .file path => do
    match ← w.readFile path with
    | .ok s => return s
    | .error cause => throw (.unreadable path cause)
  | .input => do
    match ← w.readInput with
    | .ok s => return s
    | .error cause => throw (.unreadable "stdin" cause)

def configuration (path : Option String) : ExceptT Failure m Config := do
  let file ← match path with
    | some path => w.settings path
    | none => pure .absent
  match Config.load file (← w.environment) with
  | .ok c => return c
  | .error e => throw (.configuration (.config e))

def sql (c : Config) (r : Database.Request) : ExceptT ConsoleError m Database.Outcome := do
  let client ← match r.call? c with
    | some call => pure (.constant (← w.query c call))
    | none => pure .silent
  MonadExcept.ofExcept (r.answer c client).value

def runConsole (c : Config) : ConsoleCommand → ExceptT ConsoleError m Response
  | .health true => return .detailed (.ofSnapshot (← w.survey c c.timeouts.detailed))
  | .health false => do
    let s ← w.survey c c.timeouts.live
    return .live (.ofSnapshot s (← w.metrics) (← w.now))
  | .diagnose true => return .full (.ofSnapshot (← w.survey c c.timeouts.full))
  | .diagnose false => do
    let s ← w.survey c c.timeouts.report
    return .report (.ofSnapshot s (← w.now))
  | .preflight => return .preflight (← w.survey c c.timeouts.preflight)
  | .fleetStatus => return .fleet (← fleet.statusAll)
  | .printerStatus id => return .presence id (← fleet.presence id)
  | .printerTest id => return .tested id (← fleet.test id)
  | .testPrint id => return .printed id (← fleet.testPrint id)
  | .send id command => return .sent command (← fleet.sendCommand id command)
  | .catalogue => return .catalogue
  | .info id => return .info (← fleet.info id)
  | .sql r => return .sql (← sql w c r)
where
  fleet : Fleet m := ⟨c, w.link⟩

def runCommand (config : Option String) : Command → ExceptT Failure m Response
  | .preview source html => do
    let p := Preview.ofMarkup {} (← markup w source)
    return if html then .html (previewPage p) else .preview p
  | .samples => return .samples
  | .emulate name model bind => do
    let e : Printer.Emulator := { name, model }
    match ← w.emulate e bind with
    | .ok address => return .listening address e
    | .error e => throw (.emulator e)
  | .console command => do
    let c ← configuration w config
    ExceptT.mk do return (← (runConsole w c command).run).mapError .request

/-- The format of the results: the one that was asked for, or else coloured text for a terminal and
JSON for everything else. -/
def formatOf (i : Invocation) : m Format := do
  match i.format with
  | some f => return f
  | none => return if ← w.isTerminal then .pretty else .json

def Usage.status : Usage → ExitStatus
  | .wrong => .badRequest
  | _ => .success

/-- Runs the program: what it prints, and how it ends. -/
def run (args : List String) : m (Output × ExitStatus) := do
  match Invocation.parse args with
  | .error u => return (u.output, u.status)
  | .ok i =>
    let format ← formatOf w i
    match ← (runCommand w i.config i.command).run with
    | .ok r => return (r.output format, r.status)
    | .error f => return (f.output format, f.status)

end

end LabelFleet.CommandLine
