/-! Text as bytes. Bytes are read one after another; those that make up no character are found where
they stand, and either end the reading or are replaced. -/
namespace LabelFleet.Utf8

def encode (s : List Char) : List UInt8 := s.flatMap String.utf8EncodeChar

/-- What bytes are made of. -/
inductive Piece
  | char (c : Char)
  /-- One to three bytes that begin no character. -/
  | invalid (length : Nat)
  /-- The first bytes of a character that the end cuts off. -/
  | cut
deriving DecidableEq, Repr

/-- A character of several bytes that has begun. -/
structure Begun where
  bits : Nat
  read : Nat
  missing : Nat
  /-- The next byte lies between these two. -/
  low : Nat := 0x80
  high : Nat := 0xBF
deriving DecidableEq, Repr

/-- Reads the first byte of a character. The bounds of the second byte keep out characters that
could be written with fewer bytes, surrogates, and numbers that are no characters. -/
def start (b : Nat) : List Piece × Option Begun :=
  if b < 0x80 then ([.char (Char.ofNat b)], none)
  else if 0xC2 ≤ b ∧ b ≤ 0xDF then ([], some ⟨b % 32, 1, 1, 0x80, 0xBF⟩)
  else if 0xE0 ≤ b ∧ b ≤ 0xEF then
    ([], some ⟨b % 16, 1, 2, if b = 0xE0 then 0xA0 else 0x80, if b = 0xED then 0x9F else 0xBF⟩)
  else if 0xF0 ≤ b ∧ b ≤ 0xF4 then
    ([], some ⟨b % 8, 1, 3, if b = 0xF0 then 0x90 else 0x80, if b = 0xF4 then 0x8F else 0xBF⟩)
  else ([.invalid 1], none)

/-- Reads one more byte. A byte that does not continue what has begun begins something itself. -/
def step (b : Nat) : Option Begun → List Piece × Option Begun
  | none => start b
  | some s =>
    if s.low ≤ b ∧ b ≤ s.high then
      let bits := 64 * s.bits + b % 64
      if s.missing = 1 then ([.char (Char.ofNat bits)], none)
      else ([], some { bits, read := s.read + 1, missing := s.missing - 1 })
    else
      let (ps, next) := start b
      (.invalid s.read :: ps, next)

def piecesFrom (begun : Option Begun) : List UInt8 → List Piece
  | [] => if begun.isSome then [.cut] else []
  | b :: bs =>
    let (ps, next) := step b.toNat begun
    ps ++ piecesFrom next bs

def pieces (bytes : List UInt8) : List Piece := piecesFrom none bytes

/-- The character that stands for bytes that are no text. -/
def replacement : Char := '\uFFFD'

def Piece.shown : Piece → Char
  | char c => c
  | _ => replacement

/-- Reads bytes as well as they can be read. -/
def lossy (bytes : List UInt8) : List Char := (pieces bytes).map Piece.shown

/-- Why bytes are no text, and the number of bytes in front of the place. -/
inductive Fault
  | invalid (length index : Nat)
  | cut (index : Nat)
deriving DecidableEq, Repr

def Fault.message : Fault → String
  | invalid length index => s!"invalid utf-8 sequence of {length} bytes from index {index}"
  | cut index => s!"incomplete utf-8 byte sequence from index {index}"

/-- The text of pieces that follow `index` bytes. -/
def textFrom (index : Nat) : List Piece → Except Fault (List Char)
  | [] => .ok []
  | .char c :: ps => (textFrom (index + c.utf8Size) ps).map (c :: ·)
  | .invalid length :: _ => .error (.invalid length index)
  | .cut :: _ => .error (.cut index)

def decode (bytes : List UInt8) : Except Fault (List Char) := textFrom 0 (pieces bytes)

end LabelFleet.Utf8
