import LabelFleet.Json.Basic
import LabelFleet.Printer.Address
import LabelFleet.Table

/-! The configuration of the console: its database, its printers by id, and the time limits of its
operations in milliseconds. -/
namespace LabelFleet.Config

structure Database where
  host : String := "wapromag-db"
  port : UInt16 := 5432
  user : String := "postgres"
  password : String := ""
  /-- The database that is probed, and that the nickname stands for. -/
  name : String := "wapromag_test"
  /-- The name that operators use. -/
  nickname : String := "wapromag"
  maxConnections : UInt32 := 5
  idleTimeoutSecs : UInt64 := 30
deriving DecidableEq, Repr

structure Printer where
  host : String
  port : UInt16 := Address.defaultPort
  name : String
  model : String
deriving DecidableEq, Repr

structure Timeouts where
  preflight : UInt64 := 800
  live : UInt64 := 800
  detailed : UInt64 := 800
  report : UInt64 := 1500
  full : UInt64 := 1000
  printerTest : UInt64 := 1500
  testPrint : UInt64 := 3000
  command : UInt64 := 4000
  database : UInt64 := 3000
deriving DecidableEq, Repr

/-- The two printers that are there from the start. -/
def builtinPrinters : Table Printer := .ofList [
  ("zebra-1", { host := "zebra-printer-1", name := "ZEBRA-001", model := "ZT230" }),
  ("zebra-2", { host := "zebra-printer-2", name := "ZEBRA-002", model := "ZT410" })]

end LabelFleet.Config

namespace LabelFleet

structure Config where
  database : Config.Database := {}
  printers : Table Config.Printer := Config.builtinPrinters
  timeouts : Config.Timeouts := {}

namespace Config

def Database.toJson (d : Database) : Json :=
  .object [("host", .string d.host), ("port", .natural d.port.toNat), ("user", .string d.user),
    ("password", .string d.password), ("name", .string d.name), ("alias", .string d.nickname),
    ("max_connections", .natural d.maxConnections.toNat),
    ("idle_timeout_secs", .natural d.idleTimeoutSecs.toNat)]

def Printer.toJson (p : Printer) : Json :=
  .object [("host", .string p.host), ("port", .natural p.port.toNat), ("name", .string p.name),
    ("model", .string p.model)]

def Timeouts.toJson (t : Timeouts) : Json :=
  .object ([("preflight", t.preflight), ("live", t.live), ("detailed", t.detailed),
    ("report", t.report), ("full", t.full), ("printer_test", t.printerTest),
    ("test_print", t.testPrint), ("command", t.command), ("database", t.database)].map
      fun (n, ms) => (n, .natural ms.toNat))

def toJson (c : Config) : Json :=
  .object [("database", c.database.toJson), ("printers", .ofTable Printer.toJson c.printers),
    ("timeouts", c.timeouts.toJson)]

end Config

end LabelFleet
