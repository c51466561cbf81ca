import LabelFleet.Database.Console

/-! What the program is asked to do, read from its arguments. An option may stand anywhere behind
the command that takes it; the general ones stand anywhere at all. An option that takes a value has
it behind an equals sign or as the next argument. -/
namespace LabelFleet.CommandLine

inductive Format
  | pretty
  | json
deriving DecidableEq, Repr

def Format.ofName? : String → Option Format
  | "pretty" => some .pretty
  | "json" => some .json
  | _ => none

/-- Where the markup of a preview comes from. -/
inductive MarkupSource
  | input
  | file (path : String)
  | sample (name : String)
deriving DecidableEq, Repr

/-- What is asked of the console, and so needs its configuration. -/
inductive ConsoleCommand
  | health (detailed : Bool)
  | diagnose (full : Bool)
  | preflight
  | fleetStatus
  | printerStatus (id : String)
  | printerTest (id : String)
  | testPrint (id : String)
  | send (id command : String)
  | catalogue
  | info (id : String)
  | sql (r : Database.Request)
deriving DecidableEq, Repr

inductive Command
  | preview (source : MarkupSource) (html : Bool)
  | samples
  /-- Lets an emulated printer listen at an address. -/
  | emulate (name model bind : String)
  | console (c : ConsoleCommand)
deriving DecidableEq, Repr

structure Invocation where
  /-- The format that was asked for, if any. -/
  format : Option Format
  /-- The file of the operator's own settings. -/
  config : Option String
  /-- Log lines are to be written as JSON. -/
  logJson : Bool
  command : Command
deriving DecidableEq, Repr

inductive Usage
  | help
  | version
  /-- The arguments make no sense. -/
  | wrong
deriving DecidableEq, Repr

structure Given where
  name : String
  value : Option String
  /-- How many commands stand in front of it. -/
  level : Nat
deriving DecidableEq, Repr

structure Shape where
  /-- The commands of which one has to follow. -/
  inner : List String := []
  /-- How many words it takes at most. -/
  words : Nat := 0
  flags : List String := []
  valued : List String := []

/-- The shape of the command that a path of names leads to. -/
def Shape.ofPath : List String → Shape
  | [] =>
    { inner := ["preview", "samples", "health", "diagnose", "preflight", "printers", "sql",
        "emulate"] }
  | ["preview"] => { words := 1, flags := ["html"], valued := ["sample"] }
  | ["health"] => { flags := ["detailed"] }
  | ["diagnose"] => { flags := ["full"] }
  | ["emulate"] => { valued := ["name", "model", "bind"] }
  | ["printers"] => { inner := ["status", "test", "test-print", "send", "commands", "info"] }
  | ["printers", "commands"] => {}
  | ["printers", "send"] => { words := 2 }
  | ["printers", _] => { words := 1 }
  | ["sql"] => { inner := ["test", "query", "tables"] }
  | ["sql", "query"] => { words := 1, valued := ["database"] }
  | ["sql", _] => { words := 1 }
  | _ => {}

/-- Whether a command takes a flag; one of them is for every command. -/
def Shape.hasFlag (s : Shape) (name : String) : Bool := name == "log-json" || name ∈ s.flags

/-- Whether a command takes an option with a value; two of them are for every command. -/
def Shape.hasValued (s : Shape) (name : String) : Bool :=
  name == "output" || name == "config" || name ∈ s.valued

/-- Arguments sorted into the commands that they name, their options and other words. -/
structure Arguments where
  path : List String := []
  words : List String := []
  options : List Given := []
deriving DecidableEq, Repr

namespace Arguments

def shape (a : Arguments) : Shape := .ofPath a.path

/-- Further words, all of which the command has to take. -/
def addWords (a : Arguments) (words : List String) : Except Usage Arguments :=
  if a.words.length + words.length ≤ a.shape.words then .ok { a with words := a.words ++ words }
  else .error .wrong

def accepts (name : String) (value : Option String) : Bool :=
  match name, value with
  | "output", some v => (Format.ofName? v).isSome
  | "config", some v => !v.isEmpty
  | _, _ => true

/-- One more option. A command takes each of its options once; a general one may be given to an
outer command as well. -/
def addOption (a : Arguments) (name : String) (value : Option String) : Except Usage Arguments :=
  let given : Given := ⟨name, value, a.path.length⟩
  if a.options.any (fun o => o.name == name && o.level == given.level) || !accepts name value then
    .error .wrong
  else .ok { a with options := a.options ++ [given] }

/-- The option that counts is the innermost one. -/
def find? (a : Arguments) (name : String) : Option Given :=
  a.options.reverse.find? (·.name == name)

def value? (a : Arguments) (name : String) : Option String := (a.find? name).bind Given.value

def has (a : Arguments) (name : String) : Bool := (a.find? name).isSome

end Arguments

/-- An argument that starts an option, and so is no value. -/
def looksLikeOption (s : String) : Bool :=
  match s.toList with
  | '-' :: _ :: _ => true
  | _ => false

/-- Name and value of an option with an equals sign in it. -/
def splitEquals (s : List Char) : String × Option String :=
  match s.dropWhile (· ≠ '=') with
  | [] => (String.ofList s, none)
  | _ :: value => (String.ofList (s.takeWhile (· ≠ '=')), some (String.ofList value))

/-- What comes of asking for help about an inner command. -/
def helpAbout (path : List String) : List String → Usage
  | [] => .help
  | name :: names =>
    if name ∈ (Shape.ofPath path).inner then helpAbout (path ++ [name]) names else .wrong

/-- Sorts arguments, from left to right. -/
def sortArguments (seen : Arguments) : List String → Except Usage Arguments
  | [] => .ok seen
  | arg :: args =>
    let shape := seen.shape
    match arg.toList with
    | ['-', '-'] => seen.addWords args
    | '-' :: '-' :: option =>
      match splitEquals option, args with
      | ("help", none), _ => .error .help
      | ("version", none), _ => .error (if seen.path.isEmpty then .version else .wrong)
      | (name, some value), args =>
        if shape.hasValued name then do
          let seen ← seen.addOption name (some value)
          sortArguments seen args
        else .error .wrong
      | (name, none), args =>
        if shape.hasFlag name then do
          let seen ← seen.addOption name none
          sortArguments seen args
        else
          match args with
          | value :: args =>
            if shape.hasValued name && !looksLikeOption value then do
              let seen ← seen.addOption name (some value)
              sortArguments seen args
            else .error .wrong
          | [] => .error .wrong
    | '-' :: 'h' :: _ => .error .help
    | '-' :: 'V' :: _ => .error (if seen.path.isEmpty then .version else .wrong)
    | '-' :: _ :: _ => .error .wrong
    | _ =>
      if arg ∈ shape.inner then sortArguments { seen with path := seen.path ++ [arg] } args
      else if arg = "help" ∧ !shape.inner.isEmpty then .error (helpAbout seen.path args)
      else do
        let seen ← seen.addWords [arg]
        sortArguments seen args

/-- The source of a preview's markup; a lone hyphen stands for the input. -/
def previewSource? (sample : Option String) : List String → Option MarkupSource
  | [] => some (match sample with
    | some name => .sample name
    | none => .input)
  | [path] =>
    if sample.isSome then none
    else some (if path == "-" then .input else .file path)
  | _ => none

def printerCommand? (which : String) (words : List String) : Option ConsoleCommand :=
  match which, words with
  | "status", [] => some .fleetStatus
  | "status", [id] => some (.printerStatus id)
  | "test", [id] => some (.printerTest id)
  | "test-print", [id] => some (.testPrint id)
  | "send", [id, command] => some (.send id command)
  | "commands", [] => some .catalogue
  | "info", [id] => some (.info id)
  | _, _ => none

def sqlRequest? (which : String) (database : Option String) (words : List String) :
    Option Database.Request :=
  match which, database, words with
  | "test", none, [name] => some (.test name)
  | "query", some database, [statement] => some (.execute database statement)
  | "tables", none, [name] => some (.tables name)
  | _, _, _ => none

/-- The command that the arguments make up, if they are complete. -/
def command? (a : Arguments) : Option Command :=
  match a.path with
  | ["preview"] => do
    return .preview (← previewSource? (a.value? "sample") a.words) (a.has "html")
  | ["samples"] => some .samples
  | ["health"] => some (.console (.health (a.has "detailed")))
  | ["diagnose"] => some (.console (.diagnose (a.has "full")))
  | ["preflight"] => some (.console .preflight)
  | ["emulate"] =>
    some (.emulate ((a.value? "name").getD "ZEBRA-001") ((a.value? "model").getD "ZT230")
      ((a.value? "bind").getD "0.0.0.0:9100"))
  | ["printers", which] => (printerCommand? which a.words).map .console
  | ["sql", which] => do
    return .console (.sql (← sqlRequest? which (a.value? "database") a.words))
  | _ => none

def Invocation.parse (args : List String) : Except Usage Invocation := do
  let a ← sortArguments {} args
  let some command := command? a | throw .wrong
  return {
    format := (a.value? "output").bind Format.ofName?
    config := a.value? "config"
    logJson := a.has "log-json"
    command }

end LabelFleet.CommandLine
