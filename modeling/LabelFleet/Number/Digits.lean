import LabelFleet.Text.Search

/-! Decimal digits of natural numbers: writing them, the run of digits at the start of a text, and
reading an unsigned integer below a bound. -/
namespace LabelFleet.Digits

def digit (d : Nat) : Char := Char.ofNat (48 + d % 10)

def value (c : Char) : Nat := c.toNat - 48

/-- The decimal digits of a number, without leading zeros. -/
def ofNat (n : Nat) : List Char :=
  if n < 10 then [digit n] else ofNat (n / 10) ++ [digit n]
termination_by n

def text (n : Nat) : String := String.ofList (ofNat n)

def toNat (s : List Char) : Nat := s.foldl (fun a c => 10 * a + value c) 0

theorem value_digit {d : Nat} (h : d < 10) : value (digit d) = d := by
  have all : ∀ d < 10, value (digit d) = d := by decide
  exact all d h

theorem isDigit_digit {d : Nat} (h : d < 10) : (digit d).isDigit = true := by
  have all : ∀ d < 10, (digit d).isDigit = true := by decide
  exact all d h

@[simp] theorem toNat_ofNat (n : Nat) : toNat (ofNat n) = n := by
  fun_induction ofNat n with
  | case1 n h => simp [toNat, value_digit h]
  | case2 n h ih =>
    have last : digit n = digit (n % 10) := by simp [digit]
    rw [toNat] at ih
    rw [toNat, List.foldl_append, ih, List.foldl_cons, List.foldl_nil, last,
      value_digit (Nat.mod_lt n (by decide))]
    exact Nat.div_add_mod n 10

theorem isDigit_of_mem_ofNat {n : Nat} {c : Char} (h : c ∈ ofNat n) : c.isDigit = true := by
  fun_induction ofNat n with
  | case1 n hn => exact List.mem_singleton.1 h ▸ isDigit_digit hn
  | case2 n hn ih =>
    have last : digit n = digit (n % 10) := by simp [digit]
    rcases List.mem_append.1 h with h | h
    · exact ih h
    · exact List.mem_singleton.1 h ▸ last ▸ isDigit_digit (Nat.mod_lt n (by decide))

/-- The digits at the start, and what follows them. -/
def run (s : List Char) : List Char × List Char :=
  (s.takeWhile Char.isDigit, s.dropWhile Char.isDigit)

theorem run_append (s : List Char) : (run s).1 ++ (run s).2 = s := List.takeWhile_append_dropWhile

/-- The digits of `n` with zeros in front, `width` in all if they are fewer. -/
def padded (width n : Nat) : List Char :=
  let s := ofNat n
  List.replicate (width - s.length) '0' ++ s

/-- The digits after the point of a number below one that counts units of so many places, without
zeros at the end. -/
def fraction (places n : Nat) : List Char :=
  ((padded places n).reverse.dropWhile (· == '0')).reverse

/-- A sign in front of a number, and what follows it; without one the number is positive. -/
def splitSign : List Char → Bool × List Char
  | '-' :: s => (true, s)
  | '+' :: s => (false, s)
  | s => (false, s)

inductive ReadError
  | empty
  | invalidDigit
  | tooLarge
deriving DecidableEq, Repr

def ReadError.message : ReadError → String
  | .empty => "cannot parse integer from empty string"
  | .invalidDigit => "invalid digit found in string"
  | .tooLarge => "number too large to fit in target type"

/-- Reads on from the digits of `seen`; of two faults the first one counts. -/
def readFrom (bound seen : Nat) : List Char → Except ReadError Nat
  | [] => .ok seen
  | c :: s =>
    if c.isDigit then
      if 10 * seen + value c < bound then readFrom bound (10 * seen + value c) s
      else .error .tooLarge
    else .error .invalidDigit

/-- Reads a number below `bound`: digits only, after at most one plus sign. -/
def read (bound : Nat) (s : List Char) : Except ReadError Nat :=
  match s with
  | [] => .error .empty
  | '+' :: s => if s.isEmpty then .error .invalidDigit else readFrom bound 0 s
  | s => readFrom bound 0 s

end LabelFleet.Digits
