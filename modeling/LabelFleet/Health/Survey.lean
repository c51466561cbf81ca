import LabelFleet.Config.Target
import LabelFleet.Database.Client
import LabelFleet.Health.Report

/-! Health of everything that a configuration names: the database first, then the printers in the
order of their ids. -/
namespace LabelFleet.Health

/-- What comes of dialling a printer under a time limit. Printers with one address are dialled each
by itself. -/
abbrev Dial := PrinterTarget → Duration → Timed (Except PrinterError Unit)

/-- The reason for a failed dial. A time that has run out reads like that of any other probe. -/
def dialFailure (limit : Nat) (e : PrinterError) : String :=
  if e.isTimeout then timedOut limit else e.message

/-- Dials a printer and hangs up. -/
def printerProbe (dial : Dial) (t : PrinterTarget) : Probe where
  kind := .printer
  target := t.id
  check limit := (dial t (.ofMillis limit)).map fun answer =>
    answer.mapError (dialFailure limit)

/-- One probe for each target of the configuration. -/
def probes (c : Config) (client : Database.Client) (dial : Dial) : List Probe :=
  Database.probe c.database.nickname c.database.name client ::
    c.printerTargets.map (printerProbe dial)

def survey (c : Config) (client : Database.Client) (dial : Dial) (limit : UInt64) : Snapshot :=
  .take limit.toNat (probes c client dial)

end LabelFleet.Health
