import LabelFleet.Number.Decimal

/-! Positional arguments of a command. A reader takes its argument from the start of the text and
hands on the rest; text after the last argument is not looked at. -/
namespace LabelFleet.Markup.Arguments

def number (s : List Char) : Option (Float × List Char) :=
  match Digits.run s with
  | ([], _) => none
  | (ds, rest) => some (Decimal.nearest false ⟨Digits.toNat ds, 0⟩, rest)

def comma : List Char → Option (List Char)
  | ',' :: rest => some rest
  | _ => none

/-- A capital ASCII letter, such as an orientation. -/
def upper : List Char → Option (List Char)
  | c :: rest => if c.isUpper then some rest else none
  | [] => none

def pair (s : List Char) : Option (Float × Float) := do
  let (a, s) ← number s
  let (b, _) ← number (← comma s)
  return (a, b)

def triple (s : List Char) : Option (Float × Float × Float) := do
  let (a, s) ← number s
  let (b, s) ← number (← comma s)
  let (c, _) ← number (← comma s)
  return (a, b, c)

def upperNumber (s : List Char) : Option Float := do
  let (a, _) ← number (← comma (← upper s))
  return a

def upperPair (s : List Char) : Option (Float × Float) := do
  pair (← comma (← upper s))

end LabelFleet.Markup.Arguments
