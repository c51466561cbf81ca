import LabelFleet.Text.Search

/-! Labels to try a preview on. -/
namespace LabelFleet

structure Sample where
  name : String
  markup : String
deriving DecidableEq, Repr

namespace Sample

/-- All samples, in the order in which they are shown. -/
def all : List Sample := [
  ⟨"simple",
    "^XA\n" ++
    "^FO50,50^A0N,50,50^FDHello World^FS\n" ++
    "^FO50,120^A0N,30,30^FDTest Label^FS\n" ++
    "^XZ"⟩,
  ⟨"barcode",
    "^XA\n" ++
    "^FO50,50^A0N,30,30^FDProduct Code:^FS\n" ++
    "^FO50,90^BY3^BCN,100,Y,N,N^FD5901234123457^FS\n" ++
    "^XZ"⟩,
  ⟨"qrcode",
    "^XA\n" ++
    "^FO50,50^A0N,30,30^FDScan QR Code:^FS\n" ++
    "^FO50,100^BQN,2,5^FDQA,https://example.com^FS\n" ++
    "^XZ"⟩,
  ⟨"product",
    "^XA\n" ++
    "^FO50,30^A0N,40,40^FDProduct Name^FS\n" ++
    "^FO50,80^A0N,25,25^FDSKU: PRD-001234^FS\n" ++
    "^FO50,115^A0N,20,20^FDPrice: 29.99 PLN^FS\n" ++
    "^FO50,150^BY2^BCN,80,Y,N,N^FD1234567890123^FS\n" ++
    "^FO50,260^A0N,18,18^FDMade in Poland^FS\n" ++
    "^XZ"⟩,
  ⟨"box",
    "^XA\n" ++
    "^FO50,50^GB300,200,3^FS\n" ++
    "^FO70,70^A0N,35,35^FDWARNING^FS\n" ++
    "^FO70,120^A0N,20,20^FDFragile Content^FS\n" ++
    "^FO70,150^A0N,20,20^FDHandle with Care^FS\n" ++
    "^XZ"⟩,
  ⟨"line",
    "^XA\n" ++
    "^FO50,50^GB300,0,3^FS\n" ++
    "^FO50,100^A0N,30,30^FDSection A^FS\n" ++
    "^FO50,140^GB300,0,3^FS\n" ++
    "^FO50,160^A0N,30,30^FDSection B^FS\n" ++
    "^FO50,200^GB300,0,3^FS\n" ++
    "^XZ"⟩,
  ⟨"multifield",
    "^XA\n" ++
    "^FO50,30^A0N,25,25^FDFrom:^FS\n" ++
    "^FO120,30^A0N,25,25^FDWarehouse A^FS\n" ++
    "^FO50,60^A0N,25,25^FDTo:^FS\n" ++
    "^FO120,60^A0N,25,25^FDCustomer XYZ^FS\n" ++
    "^FO50,100^GB300,0,2^FS\n" ++
    "^FO50,120^A0N,20,20^FDDate: 2025-01-15^FS\n" ++
    "^FO50,150^A0N,20,20^FDWeight: 2.5 kg^FS\n" ++
    "^FO50,180^BY2^BCN,60,Y,N,N^FDSHIP001234^FS\n" ++
    "^XZ"⟩,
  ⟨"warehouse",
    "^XA\n" ++
    "^FO30,20^GB340,280,2^FS\n" ++
    "^FO50,40^A0N,45,45^FDLOCATION^FS\n" ++
    "^FO50,100^A0N,80,80^FDA-12-03^FS\n" ++
    "^FO50,190^GB280,0,2^FS\n" ++
    "^FO50,210^A0N,25,25^FDZone: PICKING^FS\n" ++
    "^FO50,245^A0N,20,20^FDCapacity: 500 units^FS\n" ++
    "^XZ"⟩]

def find? (name : String) : Option Sample := all.find? fun s => Text.sameLetters s.name name

end Sample

end LabelFleet
