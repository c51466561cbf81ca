import LabelFleet.Duration
import LabelFleet.Json.Basic

/-! The commands that printers of the fleet answer, and the limits of an exchange with them. -/
namespace LabelFleet.Printer

def hostIdentification : String := "~HI"

def hostStatus : String := "~HS"

def ping : String := "PING"

def configDump : String := "^WD"

/-- The commands for an operator to pick from, by purpose. -/
def catalogue : List (String × String) :=
  [("host_identification", hostIdentification), ("host_status", hostStatus), ("ping", ping),
    ("config_dump", configDump)]

def testLabel : String := "^XA^FO50,50^ADN,36,20^FDTest Label^FS^XZ"

/-- How long the reply to a single command is waited for. -/
def replyWindow : Duration := .ofMillis 500

/-- Limits of a session with a printer. -/
structure Limits where
  connect : Duration := .ofMillis 1500
  write : Duration := .ofSeconds 3
  read : Duration := .ofSeconds 2
  keepalive : Duration := .ofSeconds 60
deriving DecidableEq, Repr

def Limits.uniform (limit : Duration) : Limits :=
  { connect := limit, write := limit, read := limit }

def catalogueJson : Json := .object (catalogue.map fun (purpose, c) => (purpose, .string c))

/-- A reply line; a printer that stays silent has none. -/
def replyMembers (response : Option String) : List (String × Json) :=
  response.toList.map fun line => ("response", .string line)

end LabelFleet.Printer
