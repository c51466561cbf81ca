import LabelFleet.Json.Reader

/-! Passing over a JSON value without keeping it, as a reader of an object does with a member that
it does not know. Only the shape is looked at: numbers may be of any size, escapes may name halves
of pairs, and values may be nested without limit. -/
namespace LabelFleet.Json

/-- Passes over digits of which there must be one at least. -/
def skipDigits (s : List Char) : Except SyntaxError (List Char) :=
  match Digits.run s with
  | ([], _) => .error .invalidNumber
  | (_, rest) => .ok rest

def skipPower : List Char → Except SyntaxError (List Char)
  | [] => .ok []
  | c :: s =>
    if c = 'e' ∨ c = 'E' then
      match s with
      | '+' :: s => skipDigits s
      | '-' :: s => skipDigits s
      | s => skipDigits s
    else .ok (c :: s)

/-- Passes over a number, after its sign. -/
def skipNumber (s : List Char) : Except SyntaxError (List Char) := do
  let s ←
    match s with
    | [] => throw .invalidNumber
    | c :: rest =>
      if c = '0' then
        if (rest.head?.map Char.isDigit).getD false then throw .invalidNumber else pure rest
      else skipDigits s
  match s with
  | '.' :: s => skipPower (← skipDigits s)
  | s => skipPower s

/-- Passes over a string, after its opening quote. -/
def skipString : Nat → List Char → Except SyntaxError (List Char)
  | 0, _ => .error .endInString
  | _ + 1, [] => .error .endInString
  | fuel + 1, c :: s =>
    if c = '"' then .ok s
    else if c = '\\' then
      match s with
      | [] => .error .endInString
      | 'u' :: s => do
        let (_, s) ← readHex s
        skipString fuel s
      | d :: s =>
        if (letterEscape? d).isSome then skipString fuel s else .error .invalidEscape
    else if c.toNat < 0x20 then .error .controlCharacter
    else skipString fuel s

/-- What encloses the place where the text is read. -/
inductive Enclosing
  | list
  | object
deriving DecidableEq, Repr

/-- A member's name and colon, where a member has to stand. -/
def skipName (s : List Char) : Except SyntaxError (List Char) :=
  match skipSpace s with
  | [] => .error .endInObject
  | '"' :: s => do readColon (← skipString (s.length + 1) s)
  | _ => .error .keyNotString

mutual

/-- Passes over a value inside `enclosing`, the innermost first, and over all that follows it in
there. -/
def skipValue (enclosing : List Enclosing) : Nat → List Char → Except SyntaxError (List Char)
  | 0, _ => .error .endInValue
  | fuel + 1, s =>
    match skipSpace s with
    | [] => .error .endInValue
    | 'n' :: s => do skipRest enclosing true fuel (← readWord "ull".toList s)
    | 't' :: s => do skipRest enclosing true fuel (← readWord "rue".toList s)
    | 'f' :: s => do skipRest enclosing true fuel (← readWord "alse".toList s)
    | '-' :: s => do skipRest enclosing true fuel (← skipNumber s)
    | '"' :: s => do skipRest enclosing true fuel (← skipString (s.length + 1) s)
    | '[' :: s => skipRest (.list :: enclosing) false fuel s
    | '\x7b' :: s => skipRest (.object :: enclosing) false fuel s
    | c :: s =>
      if c.isDigit then do skipRest enclosing true fuel (← skipNumber (c :: s))
      else .error .expectedValue

/-- What follows a value, or the opening of the innermost array or object if no value stands in it
yet. -/
def skipRest (enclosing : List Enclosing) (afterValue : Bool) :
    Nat → List Char → Except SyntaxError (List Char)
  | 0, _ => .error .endInValue
  | fuel + 1, s =>
    match enclosing with
    | [] => .ok s
    | .list :: outer =>
      match skipSpace s with
      | [] => .error .endInList
      | ']' :: s => skipRest outer true fuel s
      | c :: s =>
        if !afterValue then skipValue enclosing fuel (c :: s)
        else if c = ',' then skipValue enclosing fuel s
        else .error .expectedListEnd
    | .object :: outer =>
      match skipSpace s with
      | [] => .error .endInObject
      | '\x7d' :: s => skipRest outer true fuel s
      | c :: s =>
        if !afterValue then do skipValue enclosing fuel (← skipName (c :: s))
        else if c = ',' then do skipValue enclosing fuel (← skipName s)
        else .error .expectedObjectEnd

end

def skip (s : List Char) : Except SyntaxError (List Char) := skipValue [] (fuelFor s + 2) s

end LabelFleet.Json
