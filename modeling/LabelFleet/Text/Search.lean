/-! Looking for one text inside another: what follows a given beginning, whether a text occurs,
and the pieces between separators. -/
namespace LabelFleet.Text

/-- What follows `start` in a text that begins with it. -/
def after? : List Char → List Char → Option (List Char)
  | [], s => some s
  | _ :: _, [] => none
  | p :: start, c :: s => if p = c then after? start s else none

def begins (start s : List Char) : Bool := (after? start s).isSome

theorem after?_eq_some_iff {start s rest : List Char} :
    after? start s = some rest ↔ s = start ++ rest := by
  induction start generalizing s with
  | nil => simp [after?]
  | cons p start ih =>
    cases s with
    | nil => simp [after?]
    | cons c s =>
      by_cases h : p = c
      · simp [after?, h, ih]
      · simp [after?, h, Ne.symm h]

/-- What follows a character at the start of a text. -/
def char? (c : Char) (s : List Char) : Option (List Char) := after? [c] s

/-- The text `part` stands somewhere in the text. -/
def occurs (part : List Char) : List Char → Bool
  | [] => part.isEmpty
  | c :: s => begins part (c :: s) || occurs part s

/-- The pieces between the separators; there is always one more than there are separators. -/
def pieces (separator : Char) : List Char → List (List Char)
  | [] => [[]]
  | c :: s =>
    if c = separator then [] :: pieces separator s
    else
      match pieces separator s with
      | [] => [[c]]
      | p :: ps => (c :: p) :: ps

def splitLast? (separator : Char) : List Char → Option (List Char × List Char)
  | [] => none
  | c :: s =>
    match splitLast? separator s with
    | some (a, b) => some (c :: a, b)
    | none => if c = separator then some ([], s) else none

/-- The bytes that the text takes in UTF-8. -/
def byteLength : List Char → Nat
  | [] => 0
  | c :: s => c.utf8Size + byteLength s

@[simp] theorem byteLength_append (s t : List Char) :
    byteLength (s ++ t) = byteLength s + byteLength t := by
  induction s with
  | nil => simp [byteLength]
  | cons c s ih => simp [byteLength, ih, Nat.add_assoc]

/-- The texts are equal when ASCII letters are compared without regard to case. -/
def sameLetters (a b : String) : Bool :=
  a.toList.map Char.toLower == b.toList.map Char.toLower

end LabelFleet.Text
