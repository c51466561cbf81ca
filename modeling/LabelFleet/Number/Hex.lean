/-! Hexadecimal digits: they are written in lower case and read in either case. -/
namespace LabelFleet.Hex

/-- The digits of a number, without leading zeros. -/
def ofNat (n : Nat) : List Char :=
  if n < 16 then [Nat.digitChar n] else ofNat (n / 16) ++ [Nat.digitChar (n % 16)]
termination_by n

def ofByte (b : UInt8) : List Char := [Nat.digitChar (b.toNat / 16), Nat.digitChar (b.toNat % 16)]

def value? (c : Char) : Option Nat :=
  if c.isDigit then some (c.toNat - 48)
  else if 'a' ≤ c ∧ c ≤ 'f' then some (c.toNat - 87)
  else if 'A' ≤ c ∧ c ≤ 'F' then some (c.toNat - 55)
  else none

def isDigit (c : Char) : Bool := (value? c).isSome

/-- The number that digits denote in a base of at most sixteen. -/
def inBase (base : Nat) (ds : List Char) : Nat :=
  ds.foldl (fun n c => base * n + (value? c).getD 0) 0

end LabelFleet.Hex
