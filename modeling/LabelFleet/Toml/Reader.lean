import LabelFleet.Toml.Scalar

/-! Reading a TOML document into its statements. Texts, keys and nested values are read here; what
the statements mean together is left to the document. -/
namespace LabelFleet.Toml

/-- How deep arrays and inline tables may be nested, and how long a dotted key may be, counting the
first that is refused. -/
def depthLimit : Nat := 80

def isBlank (c : Char) : Bool := c == ' ' || c == '\t'

def skipBlanks (s : List Char) : List Char := s.dropWhile isBlank

/-- A character that a comment or a text may hold as it is: a tab, or any that is no control
character. -/
def isPlain (c : Char) : Bool := c == '\t' || (' ' ≤ c && c != '\x7f')

/-- The text after a line break. -/
def newLine? : List Char → Option (List Char)
  | '\n' :: s => some s
  | '\r' :: '\n' :: s => some s
  | _ => none

def skipComment : List Char → List Char
  | '#' :: s => s.dropWhile isPlain
  | s => s

/-- The end of a line, with blanks and a comment before it. -/
def endOfLine? (s : List Char) : Option (List Char) :=
  match skipComment (skipBlanks s) with
  | [] => some []
  | s => newLine? s

def skipLines : Nat → List Char → List Char
  | 0, s => s
  | fuel + 1, s =>
    match skipComment (skipBlanks s) with
    | [] => []
    | s =>
      match newLine? s with
      | some s => skipLines fuel s
      | none => s

def skipEmpty : List Char → List Char
  | '\r' :: '\n' :: s => skipEmpty s
  | c :: s => if isBlank c ∨ c = '\n' then skipEmpty s else c :: s
  | [] => []

/-! ### Texts -/

/-- The character with the given number, in exactly `n` hexadecimal digits. -/
def scalar? (n : Nat) : Reader Char := fun s =>
  let ds := s.take n
  let value := Hex.inBase 16 ds
  if ds.length = n ∧ ds.all Hex.isDigit ∧ value.isValidChar then some (Char.ofNat value, s.drop n)
  else none

/-- The character of an escape, after its backslash. -/
def escape? : Reader Char
  | 'b' :: s => some ('\x08', s)
  | 't' :: s => some ('\t', s)
  | 'n' :: s => some ('\n', s)
  | 'f' :: s => some ('\x0c', s)
  | 'r' :: s => some ('\r', s)
  | '"' :: s => some ('"', s)
  | '\\' :: s => some ('\\', s)
  | 'u' :: s => scalar? 4 s
  | 'U' :: s => scalar? 8 s
  | _ => none

/-- A text on one line, after its opening quote. -/
def basicText? : Nat → Reader (List Char)
  | 0, _ => none
  | fuel + 1, s =>
    match s with
    | '"' :: s => some ([], s)
    | '\\' :: s => do
      let (c, s) ← escape? s
      let (cs, s) ← basicText? fuel s
      return (c :: cs, s)
    | c :: s =>
      if isPlain c then (basicText? fuel s).map fun (cs, s) => (c :: cs, s) else none
    | [] => none

/-- A text on one line without escapes, after its opening quote. -/
def literalText? : Reader (List Char)
  | '\x27' :: s => some ([], s)
  | c :: s => if isPlain c then (literalText? s).map fun (cs, s) => (c :: cs, s) else none
  | [] => none

/-- Up to two quotes may stand directly before the three that end a text. -/
def closingQuotes (quote : Char) : List Char → List Char × List Char
  | a :: b :: s =>
    if a = quote then (if b = quote then ([quote, quote], s) else ([quote], b :: s))
    else ([], a :: b :: s)
  | [a] => if a = quote then ([quote], []) else ([], [a])
  | [] => ([], [])

/-- A text on several lines, after its opening quotes. A backslash at the end of a line joins it
with what follows the blanks and line breaks after it. -/
def longBasicText? : Nat → Reader (List Char)
  | 0, _ => none
  | fuel + 1, s =>
    match s with
    | '"' :: '"' :: '"' :: s => some (closingQuotes '"' s)
    | '\\' :: s =>
      match newLine? (skipBlanks s) with
      | some s => longBasicText? fuel (skipEmpty s)
      | none => do
        let (c, s) ← escape? s
        let (cs, s) ← longBasicText? fuel s
        return (c :: cs, s)
    | c :: s =>
      match newLine? (c :: s) with
      | some s => (longBasicText? fuel s).map fun (cs, s) => ('\n' :: cs, s)
      | none =>
        if isPlain c then (longBasicText? fuel s).map fun (cs, s) => (c :: cs, s) else none
    | [] => none

/-- A text on several lines without escapes, after its opening quotes. -/
def longLiteralText? : Nat → Reader (List Char)
  | 0, _ => none
  | fuel + 1, s =>
    match s with
    | '\x27' :: '\x27' :: '\x27' :: s => some (closingQuotes '\x27' s)
    | c :: s =>
      match newLine? (c :: s) with
      | some s => (longLiteralText? fuel s).map fun (cs, s) => ('\n' :: cs, s)
      | none =>
        if isPlain c then (longLiteralText? fuel s).map fun (cs, s) => (c :: cs, s) else none
    | [] => none

/-- A line break right after the opening quotes does not count. -/
def dropNewLine (s : List Char) : List Char := (newLine? s).getD s

def text? : Reader (List Char)
  | '"' :: '"' :: '"' :: s => longBasicText? (s.length + 1) (dropNewLine s)
  | '"' :: s => basicText? (s.length + 1) s
  | '\x27' :: '\x27' :: '\x27' :: s => longLiteralText? (s.length + 1) (dropNewLine s)
  | '\x27' :: s => literalText? s
  | _ => none

/-! ### Keys -/

def isBareKeyChar (c : Char) : Bool := c.isAlphanum || c == '-' || c == '_'

/-- A name in a key: bare or on one line in quotes. -/
def name? : Reader String
  | '"' :: s => (basicText? (s.length + 1) s).map fun (cs, s) => (String.ofList cs, s)
  | '\x27' :: s => (literalText? s).map fun (cs, s) => (String.ofList cs, s)
  | s =>
    let cs := s.takeWhile isBareKeyChar
    if cs.isEmpty then none else some (String.ofList cs, s.dropWhile isBareKeyChar)

/-- Names with points between them; blanks around the points do not count. -/
def names? : Nat → Reader (List String)
  | 0, _ => none
  | fuel + 1, s => do
    let (n, s) ← name? (skipBlanks s)
    match skipBlanks s with
    | '.' :: s =>
      let (ns, s) ← names? fuel s
      return (n :: ns, s)
    | s => return ([n], s)

def key? : Reader Key := fun s => do
  let (ns, s) ← names? depthLimit s
  if depthLimit ≤ ns.length then none
  return (← Key.ofList? ns, s)

/-! ### Values -/

/-- A table under construction. A table that only stands in the path of a key is implicit; one that
was made by a dotted key is not opened by a header later. -/
inductive Node
  | value (v : Value)
  | table (implicit dotted : Bool) (entries : List (String × Node))
  /-- An array of tables: the last one, and those before it in reverse. -/
  | tables (last : List (String × Node)) (before : List (List (String × Node)))

abbrev Nodes := List (String × Node)

namespace Node

mutual

def toValue : Node → Value
  | value v => v
  | table _ _ es => .table (entriesValue es)
  | tables last before => .array (tablesValue before [.table (entriesValue last)])

def entriesValue : List (String × Node) → Entries
  | [] => []
  | (k, n) :: es => (k, n.toValue) :: entriesValue es

def tablesValue : List (List (String × Node)) → List Value → List Value
  | [], done => done
  | es :: before, done => tablesValue before (.table (entriesValue es) :: done)

end

/-- Assigns a value at a dotted key. The path makes tables as it needs them; it does not enter a
table that has a header or a value of its own, and no name is assigned twice. -/
def assign (key : String) (v : Value) : List String → Nodes → Option Nodes
  | [], es => if (es.lookup key).isSome then none else some (putEntry key (value v) es)
  | p :: ps, es =>
    match es.lookup p with
    | none => (assign key v ps []).map fun sub => putEntry p (table true true sub) es
    | some (table implicit dotted sub) =>
      if !implicit ∨ (ps.isEmpty ∧ !dotted) then none
      else (assign key v ps sub).map fun sub => putEntry p (table implicit dotted sub) es
    | some (tables last before) =>
      if ps.isEmpty then none
      else (assign key v ps last).map fun last => putEntry p (tables last before) es
    | some (value _) => none

/-- The table of assignments that stand together in braces. -/
def inlineTable? (pairs : List (Key × Value)) : Option Value :=
  let put (es : Nodes) (pair : Key × Value) : Option Nodes :=
    assign pair.1.name pair.2 pair.1.path es
  (pairs.foldlM put []).map fun es => .table (entriesValue es)

end Node

mutual

/-- A value inside arrays and inline tables of which `depth` more may be opened. -/
def value? (depth : Nat) : Nat → Reader Value
  | 0, _ => none
  | fuel + 1, s =>
    match s with
    | '[' :: s =>
      if depth = 0 then none
      else (items? (depth - 1) fuel s).map fun (vs, s) => (.array vs, s)
    | '\x7b' :: s =>
      if depth = 0 then none
      else
        match skipBlanks s with
        | '\x7d' :: s => some (.table [], s)
        | s => do
          let (pairs, s) ← pairs? (depth - 1) fuel s
          return (← Node.inlineTable? pairs, s)
    | 't' :: 'r' :: 'u' :: 'e' :: s => some (.bool true, s)
    | 'f' :: 'a' :: 'l' :: 's' :: 'e' :: s => some (.bool false, s)
    | c :: t =>
      if c = '"' ∨ c = '\x27' then
        (text? (c :: t)).map fun (cs, s) => (.string (String.ofList cs), s)
      else number? (c :: t)
    | [] => none

/-- The items of an array up to its closing bracket; a comma may follow the last one. -/
def items? (depth : Nat) : Nat → Reader (List Value)
  | 0, _ => none
  | fuel + 1, s =>
    match skipLines (s.length + 1) s with
    | ']' :: s => some ([], s)
    | s => do
      let (v, s) ← value? depth fuel s
      match skipLines (s.length + 1) s with
      | ',' :: s =>
        let (vs, s) ← items? depth fuel s
        return (v :: vs, s)
      | ']' :: s => return ([v], s)
      | _ => none

/-- The assignments in an inline table up to its closing brace. -/
def pairs? (depth : Nat) : Nat → Reader (List (Key × Value))
  | 0, _ => none
  | fuel + 1, s => do
    let (k, s) ← key? s
    let (v, s) ← value? depth fuel (skipBlanks (← Text.char? '=' s))
    match skipBlanks s with
    | ',' :: s =>
      let (ps, s) ← pairs? depth fuel s
      return ((k, v) :: ps, s)
    | '\x7d' :: s => return ([(k, v)], s)
    | _ => none

end

/-! ### Statements -/

/-- A statement at the start of its line, up to the end of the line. -/
def statement? (s : List Char) : Option (Statement × List Char) :=
  match s with
  | '[' :: '[' :: s => do
    let (k, s) ← key? s
    return (.append k, ← endOfLine? (← Text.char? ']' (← Text.char? ']' s)))
  | '[' :: s => do
    let (k, s) ← key? s
    return (.open k, ← endOfLine? (← Text.char? ']' s))
  | s => do
    let (k, s) ← key? s
    let t := skipBlanks (← Text.char? '=' s)
    let (v, s) ← value? (depthLimit - 1) (2 * t.length + 2) t
    return (.assign k v, ← endOfLine? s)

def statements? : Nat → List Char → Option (List Statement)
  | 0, _ => none
  | fuel + 1, s =>
    match skipLines (s.length + 1) s with
    | [] => some []
    | s => do
      let (t, s) ← statement? s
      return t :: (← statements? fuel s)

end LabelFleet.Toml
