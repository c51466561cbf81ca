import LabelFleet.Markup.Opcode
import LabelFleet.Text.Blank

/-! Commands in label markup. A command starts at a caret followed by an ASCII letter or digit, or
at a tilde followed by an ASCII letter. Its text runs up to the next caret or tilde, without the
blank characters at its end. Text outside commands is skipped. -/
namespace LabelFleet.Markup

/-- The characters that can lead a command. -/
def isLeader (c : Char) : Bool := c == '^' || c == '~'

/-- A command starts at `c` when `rest` follows it. -/
def startsCommand (c : Char) (rest : List Char) : Bool :=
  match rest with
  | [] => false
  | d :: _ => if c = '^' then d.isAlphanum else if c = '~' then d.isAlpha else false

/-- One command: its text, and the byte at which its leader stands. -/
structure Token where
  text : List Char
  start : Nat
deriving DecidableEq, Repr

namespace Token

/-- The byte after the last character of the text. -/
def stop (t : Token) : Nat := t.start + Text.byteLength t.text

def opcode (t : Token) : Opcode := Opcode.classify t.text

/-- The leader and the two characters after it. -/
def code (t : Token) : List Char := t.text.take 3

/-- What follows the code. -/
def args (t : Token) : List Char := t.text.drop 3

@[simp] theorem code_append_args (t : Token) : t.code ++ t.args = t.text :=
  List.take_append_drop 3 t.text

end Token

/-- A place in a markup: its byte offset, and the text from there on. -/
structure Scanner where
  offset : Nat
  rest : List Char
deriving DecidableEq, Repr

namespace Scanner

def start (markup : String) : Scanner := ⟨0, markup.toList⟩

/-- The first command in a text whose first byte has the given offset, and the place where it ends:
the next leader after its own, or the end of the text. Characters that start no command are passed
over. -/
def nextFrom (offset : Nat) : List Char → Option (Token × Scanner)
  | [] => none
  | c :: rest =>
    if startsCommand c rest then
      let raw := c :: rest.takeWhile fun d => !isLeader d
      some (⟨Text.trimEnd raw, offset⟩,
        ⟨offset + Text.byteLength raw, rest.dropWhile fun d => !isLeader d⟩)
    else nextFrom (offset + c.utf8Size) rest

def next? (s : Scanner) : Option (Token × Scanner) := nextFrom s.offset s.rest

theorem length_lt_of_nextFrom {offset : Nat} {text : List Char} {t : Token} {s : Scanner}
    (h : nextFrom offset text = some (t, s)) : s.rest.length < text.length := by
  induction text generalizing offset with
  | nil => simp [nextFrom] at h
  | cons c rest ih =>
    rw [nextFrom] at h
    split at h
    · obtain ⟨-, rfl⟩ := Prod.mk.inj (Option.some.inj h)
      exact Nat.lt_succ_of_le (List.dropWhile_suffix _).length_le
    · exact Nat.lt_succ_of_lt (ih h)

/-- The commands from a place on. -/
def tokens (s : Scanner) : List Token :=
  match _found : s.next? with
  | none => []
  | some (t, later) => t :: tokens later
termination_by s.rest.length
decreasing_by exact length_lt_of_nextFrom _found

end Scanner

/-- All commands, in the order in which they start. -/
def tokenize (markup : String) : List Token := (Scanner.start markup).tokens

end LabelFleet.Markup
