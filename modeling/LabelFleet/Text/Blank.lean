/-! White space and trimming. A character is blank when Unicode gives it the property
`White_Space`; trimming removes blank characters from the ends of a text and never from its
middle. -/
namespace LabelFleet.Text

/-- The characters with the Unicode property `White_Space`. -/
def isBlank (c : Char) : Bool :=
  let n := c.toNat
  (0x9 ≤ n && n ≤ 0xd) || n == 0x20 || n == 0x85 || n == 0xa0 || n == 0x1680 ||
    (0x2000 ≤ n && n ≤ 0x200a) || n == 0x2028 || n == 0x2029 || n == 0x202f || n == 0x205f ||
    n == 0x3000

/-- Every character of the text is blank; the empty text is blank too. -/
def allBlank (s : List Char) : Bool := s.all isBlank

def trimStart (s : List Char) : List Char := s.dropWhile isBlank

def trimEnd : List Char → List Char
  | [] => []
  | c :: s =>
    match trimEnd s with
    | [] => if isBlank c then [] else [c]
    | d :: t => c :: d :: t

def trim (s : List Char) : List Char := trimStart (trimEnd s)

@[simp] theorem trimEnd_nil : trimEnd [] = [] := rfl

theorem trimEnd_cons (c : Char) (s : List Char) :
    trimEnd (c :: s) = if trimEnd s = [] ∧ isBlank c then [] else c :: trimEnd s := by
  rw [trimEnd]
  cases trimEnd s <;> simp

def trimmed (s : String) : String := String.ofList (trim s.toList)

end LabelFleet.Text
