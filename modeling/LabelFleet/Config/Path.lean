import LabelFleet.Number.Digits

/-! Paths to the values of a configuration, such as `printers.front desk.port` and `timeouts[2]`. -/
namespace LabelFleet.Config

/-- A step from a value to one inside it. -/
inductive Step
  /-- To the entry of a table. -/
  | name (name : String)
  /-- To the item of a list; a negative number counts from the end. -/
  | index (i : Int)
deriving DecidableEq, Repr

abbrev Path := List Step

namespace Path

/-- The path that leads from table to table. -/
def ofNames (names : List String) : Path := names.map .name

def isNameChar (c : Char) : Bool := c.isAlphanum || c == ' ' || c == '-' || c == '_'

/-- A name of letters, digits, spaces, dashes and underscores. -/
def name? (s : List Char) : Option (Step × List Char) :=
  let cs := s.takeWhile isNameChar
  if cs.isEmpty then none else some (.name (String.ofList cs), s.dropWhile isNameChar)

def skipBlanks (s : List Char) : List Char := s.dropWhile fun c => c == ' ' || c == '\t'

/-- A number of 64 bits, up to its closing bracket. Blanks may stand around it. -/
def index? (s : List Char) : Option (Step × List Char) := do
  let (negative, s) :=
    match skipBlanks s with
    | '-' :: s => (true, s)
    | s => (false, s)
  let (ds, s) := Digits.run s
  let n : Int := if negative then -(Digits.toNat ds : Int) else Digits.toNat ds
  if ds.isEmpty ∨ n < -9223372036854775808 ∨ 9223372036854775808 ≤ n then none
  return (.index n, ← Text.char? ']' (skipBlanks s))

/-- The steps after the first one: names after points, and numbers in brackets. -/
def steps? : Nat → List Char → Option Path
  | _, [] => some []
  | fuel + 1, '.' :: s => do
    let (step, s) ← name? s
    return step :: (← steps? fuel s)
  | fuel + 1, '[' :: s => do
    let (step, s) ← index? s
    return step :: (← steps? fuel s)
  | _, _ => none

/-- The path that a key is written as. -/
def ofKey? (key : String) : Option Path := do
  let (step, s) ← name? key.toList
  return step :: (← steps? s.length s)

end Path

end LabelFleet.Config
