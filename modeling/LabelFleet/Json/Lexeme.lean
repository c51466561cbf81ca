import LabelFleet.Json.Basic
import LabelFleet.Json.SyntaxError
import LabelFleet.Number.Decimal
import LabelFleet.Number.Hex
import LabelFleet.Text.Search

/-! The smallest parts of a JSON text: blanks, words, numbers and strings. Each reader takes its
part from the start of a text and hands on the rest. -/
namespace LabelFleet.Json

/-- What was read, and the text after it. -/
abbrev Parsed (α : Type) := α × List Char

/-- The four blank characters of JSON. -/
def isSpace (c : Char) : Bool := c == ' ' || c == '\n' || c == '\t' || c == '\r'

def skipSpace (s : List Char) : List Char := s.dropWhile isSpace

/-- The rest of a word such as `null` after its first letter. -/
def readWord : List Char → List Char → Except SyntaxError (List Char)
  | [], s => .ok s
  | _ :: _, [] => .error .endInValue
  | w :: ws, c :: s => if c = w then readWord ws s else .error .expectedIdent

/-- Digits of a 64 bit significand: they are taken as long as the number fits. The count says how
many were taken. -/
def absorb (seen : Nat) : List Char → Nat × Nat
  | [] => (seen, 0)
  | d :: ds =>
    let next := 10 * seen + Digits.value d
    if next < Nat.pow 2 64 then
      let (n, k) := absorb next ds
      (n, k + 1)
    else (seen, 0)

def powerOfTen (e : Nat) : Float := Decimal.nearest false ⟨1, e⟩

/-- The double of `significand * 10 ^ e`: the double of the significand, multiplied or divided by
the double of one power of ten, or divided twice where one power does not reach. -/
def scaled (significand : Nat) (e : Int) : Except SyntaxError Float :=
  let x := Binary64.ofNat significand
  if significand = 0 then .ok x
  else if 308 < e then .error .numberOutOfRange
  else if 0 ≤ e then
    let y := x * powerOfTen e.toNat
    if Binary64.isFinite y then .ok y else .error .numberOutOfRange
  else if -308 ≤ e then .ok (x / powerOfTen (-e).toNat)
  else if -616 ≤ e then .ok (x / powerOfTen 308 / powerOfTen (-e - 308).toNat)
  else .ok 0

def signed (isNegative : Bool) (x : Float) : Json :=
  double (if isNegative then Binary64.negate x else x)

/-- The digits before the point. A zero stands alone. -/
def readWhole : List Char → Except SyntaxError (Parsed (List Char))
  | [] => .error .endInValue
  | s@(c :: rest) =>
    if c = '0' then
      if (rest.head?.map Char.isDigit).getD false then .error .invalidNumber else .ok (['0'], rest)
    else if c.isDigit then .ok (Digits.run s) else .error .invalidNumber

/-- The point and the digits after it, at least one. -/
def readFraction : List Char → Except SyntaxError (Parsed (Option (List Char)))
  | '.' :: s =>
    match Digits.run s with
    | ([], []) => .error .endInValue
    | ([], _) => .error .invalidNumber
    | (ds, rest) => .ok (some ds, rest)
  | s => .ok (none, s)

/-- The power of ten after the digits. -/
def readPower : List Char → Except SyntaxError (Parsed (Option Int))
  | [] => .ok (none, [])
  | c :: s =>
    if c = 'e' ∨ c = 'E' then
      let (isNegative, s) : Bool × List Char :=
        match s with
        | '+' :: s => (false, s)
        | '-' :: s => (true, s)
        | s => (false, s)
      match Digits.run s with
      | ([], []) => .error .endInValue
      | ([], _) => .error .invalidNumber
      | (ds, rest) =>
        let n : Int := Digits.toNat ds
        .ok (some (if isNegative then -n else n), rest)
    else .ok (none, c :: s)

/-- An integer that fits stays an integer, but the negative zero is a double. -/
def integer (isNegative : Bool) (n : Nat) : Json :=
  if !isNegative then natural n
  else if 0 < n ∧ n ≤ Nat.pow 2 63 then negative n
  else signed true (Binary64.ofNat n)

/-- A number, after its sign. -/
def readNumber (isNegative : Bool) (s : List Char) : Except SyntaxError (Parsed Json) := do
  let (whole, s) ← readWhole s
  let (fraction, s) ← readFraction s
  let (power, s) ← readPower s
  let (n, k) := absorb 0 whole
  if fraction.isNone ∧ power.isNone ∧ k = whole.length then return (integer isNegative n, s)
  let (n, j) := absorb n (fraction.getD [])
  let x ← scaled n ((whole.length : Int) - k - j + power.getD 0)
  return (signed isNegative x, s)

/-- Four hexadecimal digits. Fewer than four bytes of text end inside the string. -/
def readHex (s : List Char) : Except SyntaxError (Parsed Nat) :=
  match s with
  | a :: b :: c :: d :: rest =>
    match Hex.value? a, Hex.value? b, Hex.value? c, Hex.value? d with
    | some a, some b, some c, some d => .ok (((a * 16 + b) * 16 + c) * 16 + d, rest)
    | _, _, _, _ => .error .invalidEscape
  | s => .error (if Text.byteLength s < 4 then .endInString else .invalidEscape)

def isHighSurrogate (n : Nat) : Bool := 0xd800 ≤ n && n ≤ 0xdbff

def isLowSurrogate (n : Nat) : Bool := 0xdc00 ≤ n && n ≤ 0xdfff

/-- The character of a numeric escape; the two halves of a pair follow each other. -/
def readUnicode (s : List Char) : Except SyntaxError (Parsed Char) := do
  let (high, s) ← readHex s
  if isLowSurrogate high then throw .loneSurrogate
  if !isHighSurrogate high then return (Char.ofNat high, s)
  match s with
  | [] => throw .endInString
  | '\\' :: 'u' :: s =>
    let (low, s) ← readHex s
    if !isLowSurrogate low then throw .loneSurrogate
    return (Char.ofNat ((high - 0xd800) * 0x400 + (low - 0xdc00) + 0x10000), s)
  | ['\\'] => throw .endInString
  | _ => throw .endOfHexEscape

def letterEscape? : Char → Option Char
  | '"' => some '"'
  | '\\' => some '\\'
  | '/' => some '/'
  | 'b' => some '\x08'
  | 'f' => some '\x0c'
  | 'n' => some '\n'
  | 'r' => some '\r'
  | 't' => some '\t'
  | _ => none

/-- The character of an escape, after its backslash. -/
def readEscape : List Char → Except SyntaxError (Parsed Char)
  | [] => .error .endInString
  | 'u' :: s => readUnicode s
  | c :: s =>
    match letterEscape? c with
    | some d => .ok (d, s)
    | none => .error .invalidEscape

/-- Reads characters up to the closing quote, in at most `fuel` steps. -/
def readCharacters : Nat → List Char → Except SyntaxError (Parsed (List Char))
  | 0, _ => .error .endInString
  | _ + 1, [] => .error .endInString
  | fuel + 1, c :: s =>
    if c = '"' then .ok ([], s)
    else if c = '\\' then do
      let (d, s) ← readEscape s
      let (ds, s) ← readCharacters fuel s
      return (d :: ds, s)
    else if c.toNat < 0x20 then .error .controlCharacter
    else do
      let (ds, s) ← readCharacters fuel s
      return (c :: ds, s)

/-- A string, after its opening quote. Each step takes a character away, so the text's length
suffices. -/
def readString (s : List Char) : Except SyntaxError (Parsed String) := do
  let (cs, s) ← readCharacters (s.length + 1) s
  return (String.ofList cs, s)

end LabelFleet.Json
