import LabelFleet.Json.Basic
import LabelFleet.Number.Hex
import LabelFleet.Number.Style

/-! Writing JSON, on one line or with an indented line for each item. Only quotes, backslashes and
control characters are escaped. -/
namespace LabelFleet.Json

def escapeChar (c : Char) : List Char :=
  match c with
  | '"' => ['\\', '"']
  | '\\' => ['\\', '\\']
  | '\n' => ['\\', 'n']
  | '\r' => ['\\', 'r']
  | '\t' => ['\\', 't']
  | '\x08' => ['\\', 'b']
  | '\x0c' => ['\\', 'f']
  | c => if c.toNat < 0x20 then "\\u00".toList ++ Hex.ofByte (UInt8.ofNat c.toNat) else [c]

def stringText (s : String) : List Char := '"' :: s.toList.flatMap escapeChar ++ ['"']

/-- The text of a value that is neither an array nor an object. -/
def scalarText : Json → List Char
  | bool true => "true".toList
  | bool false => "false".toList
  | natural n => Digits.ofNat n
  | negative n => '-' :: Digits.ofNat n
  | double x => Style.json.text x
  | string s => stringText s
  | _ => "null".toList

mutual

/-- The value on one line, without any blank. -/
def compact : Json → List Char
  | array [] => ['[', ']']
  | array (v :: vs) => '[' :: compact v ++ compactItems vs
  | object [] => ['\x7b', '\x7d']
  | object ((n, v) :: ms) => '\x7b' :: stringText n ++ ':' :: compact v ++ compactMembers ms
  | v => scalarText v

/-- The items after the first, up to the closing bracket. -/
def compactItems : List Json → List Char
  | [] => [']']
  | v :: vs => ',' :: compact v ++ compactItems vs

/-- The members after the first, up to the closing brace. -/
def compactMembers : List (String × Json) → List Char
  | [] => ['\x7d']
  | (n, v) :: ms => ',' :: stringText n ++ ':' :: compact v ++ compactMembers ms

end

/-- A new line with `depth` levels of two blanks each. -/
def newLine (depth : Nat) : List Char := '\n' :: List.replicate (2 * depth) ' '

mutual

/-- The value with each item on a line of its own, inside `depth` enclosing values. -/
def pretty (depth : Nat) : Json → List Char
  | array [] => ['[', ']']
  | array (v :: vs) =>
    '[' :: newLine (depth + 1) ++ pretty (depth + 1) v ++ prettyItems depth vs
  | object [] => ['\x7b', '\x7d']
  | object ((n, v) :: ms) =>
    '\x7b' :: newLine (depth + 1) ++ stringText n ++ ':' :: ' ' :: pretty (depth + 1) v ++
      prettyMembers depth ms
  | v => scalarText v

def prettyItems (depth : Nat) : List Json → List Char
  | [] => newLine depth ++ [']']
  | v :: vs => ',' :: newLine (depth + 1) ++ pretty (depth + 1) v ++ prettyItems depth vs

def prettyMembers (depth : Nat) : List (String × Json) → List Char
  | [] => newLine depth ++ ['\x7d']
  | (n, v) :: ms =>
    ',' :: newLine (depth + 1) ++ stringText n ++ ':' :: ' ' :: pretty (depth + 1) v ++
      prettyMembers depth ms

end

def compactText (v : Json) : String := String.ofList v.compact

def prettyText (v : Json) : String := String.ofList (v.pretty 0)

end LabelFleet.Json
