import LabelFleet.Json.Lexeme

/-! Reading JSON. A text holds one value with blanks around it; values may be nested 127 deep. Of
several faults the first one in the text is reported. Objects list their members by name, and of
members with one name the last one counts. -/
namespace LabelFleet.Json

/-- How many arrays and objects may stand inside one another, counting one that is refused. -/
def depthLimit : Nat := 128

/-- Whether another item follows in an array. Before the first item there is no comma. -/
def nextItem (first : Bool) (s : List Char) : Except SyntaxError (Parsed Bool) :=
  match skipSpace s with
  | [] => .error .endInList
  | ']' :: s => .ok (false, s)
  | c :: s =>
    if first then .ok (true, c :: s)
    else if c = ',' then
      match skipSpace s with
      | [] => .error .endInValue
      | ']' :: _ => .error .trailingComma
      | s => .ok (true, s)
    else .error .expectedListEnd

/-- The name of the next member of an object, if there is one. -/
def nextName (first : Bool) (s : List Char) : Except SyntaxError (Parsed (Option String)) := do
  match skipSpace s with
  | [] => throw .endInObject
  | '\x7d' :: s => return (none, s)
  | c :: s =>
    if first then
      if c = '"' then
        let (name, s) ← readString s
        return (some name, s)
      else throw .keyNotString
    else if c = ',' then
      match skipSpace s with
      | [] => throw .endInValue
      | '"' :: s =>
        let (name, s) ← readString s
        return (some name, s)
      | '\x7d' :: _ => throw .trailingComma
      | _ => throw .keyNotString
    else throw .expectedObjectEnd

/-- The colon after a member's name. -/
def readColon (s : List Char) : Except SyntaxError (List Char) :=
  match skipSpace s with
  | [] => .error .endInObject
  | ':' :: s => .ok s
  | _ => .error .expectedColon

mutual

/-- A value inside arrays and objects of which `depth` more may be opened. Each call takes one unit
of fuel. -/
def readValue (depth : Nat) : Nat → List Char → Except SyntaxError (Parsed Json)
  | 0, _ => .error .endInValue
  | fuel + 1, s =>
    match skipSpace s with
    | [] => .error .endInValue
    | 'n' :: s => return (null, ← readWord "ull".toList s)
    | 't' :: s => return (bool true, ← readWord "rue".toList s)
    | 'f' :: s => return (bool false, ← readWord "alse".toList s)
    | '-' :: s => readNumber true s
    | '"' :: s => do
      let (t, s) ← readString s
      return (string t, s)
    | '[' :: s =>
      if depth ≤ 1 then .error .tooDeep
      else do
        let (items, s) ← readItems (depth - 1) true fuel s
        return (array items, s)
    | '\x7b' :: s =>
      if depth ≤ 1 then .error .tooDeep
      else do
        let (members, s) ← readMembers (depth - 1) true [] fuel s
        return (object members, s)
    | c :: s => if c.isDigit then readNumber false (c :: s) else .error .expectedValue

def readItems (depth : Nat) (first : Bool) :
    Nat → List Char → Except SyntaxError (Parsed (List Json))
  | 0, _ => .error .endInList
  | fuel + 1, s => do
    match ← nextItem first s with
    | (false, s) => return ([], s)
    | (true, s) =>
      let (v, s) ← readValue depth fuel s
      let (vs, s) ← readItems depth false fuel s
      return (v :: vs, s)

def readMembers (depth : Nat) (first : Bool) (seen : Members) :
    Nat → List Char → Except SyntaxError (Parsed Members)
  | 0, _ => .error .endInObject
  | fuel + 1, s => do
    match ← nextName first s with
    | (none, s) => return (seen, s)
    | (some name, s) =>
      let (v, s) ← readValue depth fuel (← readColon s)
      readMembers depth false (insertEntry name v seen) fuel s

end

/-- Fuel for a text: a call is followed by another one on the same text at most once before a
character is taken. -/
def fuelFor (s : List Char) : Nat := 2 * s.length + 2

/-- Nothing but blanks may follow the value of a text. -/
def atEnd (s : List Char) : Except SyntaxError Unit :=
  if (skipSpace s).isEmpty then .ok () else .error .trailingCharacters

def parse (s : List Char) : Except SyntaxError Json := do
  let (v, rest) ← readValue depthLimit (fuelFor s) s
  atEnd rest
  return v

end LabelFleet.Json
