import LabelFleet.Printer.Error
import LabelFleet.Printer.Ip
import LabelFleet.Text.Blank

/-! Addresses of printers. An operator types an internet address or a host name, with or without a
port; the host of an internet address is kept in its canonical text. -/
namespace LabelFleet

structure Address where
  host : String
  port : UInt16
deriving DecidableEq, Repr

namespace Address

/-- The port on which label printers listen. -/
def defaultPort : UInt16 := 9100

/-- Host and port; a host with a colon in it stands in brackets. -/
def text (a : Address) : String :=
  let host := if ':' ∈ a.host.toList then s!"[{a.host}]" else a.host
  s!"{host}:{Digits.text a.port.toNat}"

def isHostChar (c : Char) : Bool := c.isAlphanum || c == '-' || c == '.' || c == '_'

/-- A host name has 1 to 253 characters. -/
def isHostName (host : List Char) : Bool :=
  !host.isEmpty && decide (Text.byteLength host ≤ 253) && host.all isHostChar

def ofIp (ip : Ip) (port : UInt16) : Address := ⟨String.ofList ip.text, port⟩

/-- A port number, with a plus sign or zeros in front if the operator likes. -/
def port? (s : List Char) : Option UInt16 :=
  match Digits.read (Nat.pow 2 16) s with
  | .ok n => some (UInt16.ofNat n)
  | .error _ => none

/-- The host and port of a text without blanks around it. -/
def ofTrimmed? (s : List Char) : Option Address :=
  match Endpoint.parse? s, Ip.parse? s with
  | some e, _ => some (ofIp e.ip e.port)
  | none, some ip => some (ofIp ip defaultPort)
  | none, none => do
    let (host, port) ←
      match Text.splitLast? ':' s with
      | some (host, port) => (port? port).map fun p => (host, p)
      | none => some (s, defaultPort)
    if isHostName host then some ⟨String.ofList host, port⟩ else none

def parse (input : String) : Except PrinterError Address :=
  let s := Text.trim input.toList
  match ofTrimmed? s with
  | some a => .ok a
  | none => .error (.invalidAddress (String.ofList s))

/-- The endpoint of an address. An internet address stands for itself; other hosts are looked up by
name. -/
def resolve (lookup : String → Option Ip) (a : Address) : Except PrinterError Endpoint :=
  match (Ip.parse? a.host.toList).or (lookup a.host) with
  | some ip => .ok ⟨ip, a.port⟩
  | none => .error (.noAddressFound a.host)

end Address

end LabelFleet
