import LabelFleet.Number.Digits
import LabelFleet.Number.Hex

/-! Internet addresses as text. An address has one canonical text: decimal octets for version 4; for
version 6 lower case groups, with the first of the longest runs of zero groups left out. -/
namespace LabelFleet

inductive Ip
  | v4 (a b c d : UInt8)
  | v6 (groups : List UInt16) (length_eq : groups.length = 8)
deriving DecidableEq

structure Endpoint where
  ip : Ip
  port : UInt16
deriving DecidableEq

namespace Ip

/-! ### Writing -/

def octets (a b c d : UInt8) : List Char :=
  Digits.ofNat a.toNat ++ '.' :: Digits.ofNat b.toNat ++ '.' :: Digits.ofNat c.toNat ++
    '.' :: Digits.ofNat d.toNat

/-- A group in hexadecimal digits without leading zeros. -/
def group (g : UInt16) : List Char := Hex.ofNat g.toNat

def groupsText : List UInt16 → List Char
  | [] => []
  | [g] => group g
  | g :: gs => group g ++ ':' :: groupsText gs

def leadingZeros : List UInt16 → Nat
  | [] => 0
  | g :: gs => if g = 0 then leadingZeros gs + 1 else 0

/-- Start and length of the first of the longest runs of zero groups. -/
def longestZeros : List UInt16 → Nat × Nat
  | [] => (0, 0)
  | g :: gs =>
    let here := leadingZeros (g :: gs)
    let (start, length) := longestZeros gs
    if length ≤ here then (0, here) else (start + 1, length)

def text : Ip → List Char
  | v4 a b c d => octets a b c d
  | v6 [0, 0, 0, 0, 0, 0xffff, g, h] _ =>
    "::ffff:".toList ++ octets (g >>> 8).toUInt8 g.toUInt8 (h >>> 8).toUInt8 h.toUInt8
  | v6 gs _ =>
    let (start, length) := longestZeros gs
    if 1 < length then
      groupsText (gs.take start) ++ ':' :: ':' :: groupsText (gs.drop (start + length))
    else groupsText gs

/-! ### Reading -/

/-- A number from 0 to 255 without leading zeros. -/
def octet? (s : List Char) : Option (UInt8 × List Char) :=
  let (ds, rest) := Digits.run s
  if ds.isEmpty ∨ 3 < ds.length ∨ (ds.head? = some '0' ∧ 1 < ds.length) then none
  else if Digits.toNat ds < 256 then some (UInt8.ofNat (Digits.toNat ds), rest)
  else none

def octets? (s : List Char) : Option ((UInt8 × UInt8 × UInt8 × UInt8) × List Char) := do
  let (a, s) ← octet? s
  let (b, s) ← octet? (← Text.char? '.' s)
  let (c, s) ← octet? (← Text.char? '.' s)
  let (d, s) ← octet? (← Text.char? '.' s)
  return ((a, b, c, d), s)

/-- One to four hexadecimal digits. -/
def group? (s : List Char) : Option (UInt16 × List Char) :=
  let ds := s.takeWhile Hex.isDigit
  if ds.isEmpty ∨ 4 < ds.length then none
  else some (UInt16.ofNat (Hex.inBase 16 ds), s.dropWhile Hex.isDigit)

/-- The two groups that four octets make up. -/
def pairOfOctets (a b c d : UInt8) : List UInt16 :=
  [a.toUInt16 <<< 8 ||| b.toUInt16, c.toUInt16 <<< 8 ||| d.toUInt16]

/-- Reads at most `room` groups with colons between them; the last two may be four octets. It tells
whether they were. -/
def readGroups (first : Bool) : Nat → List Char → List UInt16 × Bool × List Char
  | 0, s => ([], false, s)
  | room + 1, s =>
    match if first then some s else Text.char? ':' s with
    | none => ([], false, s)
    | some t =>
      match if room = 0 then none else octets? t with
      | some ((a, b, c, d), rest) => (pairOfOctets a b c d, true, rest)
      | none =>
        match group? t with
        | none => ([], false, s)
        | some (g, rest) =>
          let (gs, octets, rest) := readGroups false room rest
          (g :: gs, octets, rest)

/-- The address with these groups, if there are eight. -/
def ofGroups? (gs : List UInt16) : Option Ip :=
  if h : gs.length = 8 then some (v6 gs h) else none

/-- An address of version 6: eight groups, or fewer around a pair of colons that stands for at least
one zero group. Octets may only come last. -/
def readV6 (s : List Char) : Option (Ip × List Char) := do
  let (front, octets, s) := readGroups true 8 s
  if front.length = 8 then return (← ofGroups? front, s)
  if octets then none
  let s ← Text.char? ':' (← Text.char? ':' s)
  let (back, _, s) := readGroups true (7 - front.length) s
  let zeros := List.replicate (8 - front.length - back.length) 0
  return (← ofGroups? (front ++ zeros ++ back), s)

def readV4 (s : List Char) : Option (Ip × List Char) := do
  let ((a, b, c, d), s) ← octets? s
  return (v4 a b c d, s)

/-- The value of a text that is read to its end. -/
def whole {α : Type} : Option (α × List Char) → Option α
  | some (a, []) => some a
  | _ => none

def parse? (s : List Char) : Option Ip := (whole (readV4 s)).or (whole (readV6 s))

end Ip

namespace Endpoint

def text (e : Endpoint) : List Char :=
  match e.ip with
  | .v4 .. => e.ip.text ++ ':' :: Digits.ofNat e.port.toNat
  | .v6 .. => '[' :: e.ip.text ++ ']' :: ':' :: Digits.ofNat e.port.toNat

def number? (bound : Nat) (s : List Char) : Option (Nat × List Char) :=
  let (ds, rest) := Digits.run s
  if ds.isEmpty then none
  else if Digits.toNat ds < bound then some (Digits.toNat ds, rest)
  else none

def readPort (s : List Char) : Option (UInt16 × List Char) := do
  let (n, s) ← number? (Nat.pow 2 16) (← Text.char? ':' s)
  return (UInt16.ofNat n, s)

def readV4 (s : List Char) : Option (Endpoint × List Char) := do
  let (ip, s) ← Ip.readV4 s
  let (port, s) ← readPort s
  return (⟨ip, port⟩, s)

/-- A numeric scope after the address is passed over. -/
def skipScope (s : List Char) : List Char :=
  (do
    let (_, rest) ← number? (Nat.pow 2 32) (← Text.char? '%' s)
    return rest).getD s

def readV6 (s : List Char) : Option (Endpoint × List Char) := do
  let (ip, s) ← Ip.readV6 (← Text.char? '[' s)
  let (port, s) ← readPort (← Text.char? ']' (skipScope s))
  return (⟨ip, port⟩, s)

def parse? (s : List Char) : Option Endpoint := (Ip.whole (readV4 s)).or (Ip.whole (readV6 s))

end Endpoint

end LabelFleet
