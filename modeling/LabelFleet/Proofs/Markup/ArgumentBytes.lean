import LabelFleet.Markup.Cursor
import LabelFleet.Proofs.Markup.ArgumentForms
import LabelFleet.Proofs.Number.Numerals
import LabelFleet.Proofs.Text.Bytes

/-! Arguments by bytes. A reader may look for its digits and its capital among the bytes of the text
and cut the text where they end: it never cuts a character in two, its digits always are a number,
and it reads what the readers of characters do. What these read is told by the forms of arguments,
and so is what an argument does to the cursor. -/
namespace LabelFleet.Markup.Arguments

namespace Bytes

open Text (bytes byteLength)

/-! ### The readers -/

/-- A place at which a text cannot be cut. -/
inductive Fault
  | insideCharacter
  | beyondEnd
deriving DecidableEq, Repr

/-- Finding nothing to read is no fault. -/
abbrev Reading (α : Type) := OptionT (Except Fault) α

/-- The text in front of a byte offset, and the text behind it. -/
def cut : List Char → Nat → Except Fault (List Char × List Char)
  | s, 0 => .ok ([], s)
  | [], _ + 1 => .error .beyondEnd
  | c :: s, k + 1 =>
    if c.utf8Size ≤ k + 1 then (cut s (k + 1 - c.utf8Size)).map fun r => (c :: r.1, r.2)
    else .error .insideCharacter

def isDigit (b : UInt8) : Bool := 48 ≤ b.toNat && b.toNat ≤ 57

def isUpper (b : UInt8) : Bool := 65 ≤ b.toNat && b.toNat ≤ 90

def number (s : List Char) : Reading (Float × List Char) := do
  let length := ((bytes s).takeWhile isDigit).length
  if length = 0 then failure
  else
    let (ds, rest) ← cut s length
    match Number.read ds with
    | .ok x => return (x, rest)
    | .error _ => failure

def comma (s : List Char) : Reading (List Char) := OptionT.mk (.ok (Arguments.comma s))

def upper (s : List Char) : Reading (List Char) := do
  if (bytes s).head?.any isUpper then
    let (_, rest) ← cut s 1
    return rest
  else failure

def pair (s : List Char) : Reading (Float × Float) := do
  let (a, s) ← number s
  let (b, _) ← number (← comma s)
  return (a, b)

def triple (s : List Char) : Reading (Float × Float × Float) := do
  let (a, s) ← number s
  let (b, s) ← number (← comma s)
  let (c, _) ← number (← comma s)
  return (a, b, c)

def upperNumber (s : List Char) : Reading Float := do
  let (a, _) ← number (← comma (← upper s))
  return a

def upperPair (s : List Char) : Reading (Float × Float) := do
  pair (← comma (← upper s))

/-! ### Where a text is cut -/

theorem cut_byteLength (before after : List Char) :
    cut (before ++ after) (byteLength before) = .ok (before, after) := by
  induction before with
  | nil => exact cut.eq_1 after
  | cons c before ih =>
    obtain ⟨k, hk⟩ := Nat.exists_eq_add_one_of_ne_zero
      (Nat.ne_of_gt (Nat.add_pos_left c.utf8Size_pos (byteLength before)))
    rw [List.cons_append, byteLength, hk, cut, ← hk, if_pos (Nat.le_add_right _ _),
      Nat.add_sub_cancel_left, ih]
    rfl

/-! ### Classes of ASCII characters -/

/-- A class of ASCII characters, and the class of the bytes that they are. -/
structure Ascii (q : Char → Bool) (p : UInt8 → Bool) : Prop where
  char_lt : ∀ c, q c = true → c.toNat < 128
  byte_lt : ∀ b, p b = true → b.toNat < 128
  eq : ∀ c b, c.toNat = b.toNat → q c = p b

theorem ascii_isDigit : Ascii Char.isDigit isDigit where
  char_lt c hc := by
    rw [Text.isDigit_iff] at hc
    omega
  byte_lt b hb := by
    rw [isDigit, Bool.and_eq_true, decide_eq_true_eq, decide_eq_true_eq] at hb
    omega
  eq c b h := by
    rw [Bool.eq_iff_iff, Text.isDigit_iff, isDigit, h]
    simp

theorem ascii_isUpper : Ascii Char.isUpper isUpper where
  char_lt c hc := by
    rw [Text.isUpper_iff] at hc
    omega
  byte_lt b hb := by
    rw [isUpper, Bool.and_eq_true, decide_eq_true_eq, decide_eq_true_eq] at hb
    omega
  eq c b h := by
    rw [Bool.eq_iff_iff, Text.isUpper_iff, isUpper, h]
    simp

variable {q : Char → Bool} {p : UInt8 → Bool} {c : Char} {s : List Char}

/-- The first byte of a character tells whether the character is in the class; then there is no
other byte. -/
theorem Ascii.exists_utf8EncodeChar (h : Ascii q p) (c : Char) :
    ∃ b bs, String.utf8EncodeChar c = b :: bs ∧ p b = q c ∧ (q c = true → bs = []) := by
  by_cases hc : c.toNat < 128
  · have hbyte : (UInt8.ofNat c.toNat).toNat = c.toNat := by
      rw [UInt8.toNat_ofNat', Nat.mod_eq_of_lt (by omega)]
    exact ⟨_, [], Text.utf8EncodeChar_of_lt hc, (h.eq c _ hbyte.symm).symm, fun _ => rfl⟩
  · have hq : q c = false := Bool.eq_false_iff.mpr fun hq => hc (h.char_lt c hq)
    have hval : 127 < c.val.toNat := Nat.lt_of_succ_le (Nat.le_of_not_lt hc)
    obtain ⟨b, bs, hcons⟩ : ∃ b bs, String.utf8EncodeChar c = b :: bs := by
      apply List.exists_cons_of_length_pos
      rw [String.length_utf8EncodeChar]
      exact c.utf8Size_pos
    have hb := Text.toNat_of_mem_utf8EncodeChar hval (hcons ▸ List.mem_cons_self)
    have hp : p b = false := Bool.eq_false_iff.mpr fun hp => Nat.not_lt.mpr hb (h.byte_lt b hp)
    rw [hq]
    exact ⟨b, bs, hcons, hp, fun h => absurd h Bool.false_ne_true⟩

theorem Ascii.head?_any (h : Ascii q p) (s : List Char) :
    (bytes s).head?.any p = s.head?.any q := by
  cases s with
  | nil => rfl
  | cons c s =>
    obtain ⟨b, bs, hcons, hb, -⟩ := h.exists_utf8EncodeChar c
    rw [Text.bytes_cons, hcons]
    exact hb

/-- The bytes of a class at the start of a text are the characters of the class there. -/
theorem Ascii.takeWhile_bytes (h : Ascii q p) (s : List Char) :
    (bytes s).takeWhile p = bytes (s.takeWhile q) := by
  induction s with
  | nil => rfl
  | cons c s ih =>
    obtain ⟨b, bs, hcons, hb, hone⟩ := h.exists_utf8EncodeChar c
    rw [Text.bytes_cons, hcons, List.cons_append, List.takeWhile_cons, List.takeWhile_cons, hb]
    cases hc : q c with
    | true => rw [if_pos rfl, if_pos rfl, hone hc, List.nil_append, ih, Text.bytes_cons, hcons,
        hone hc, List.singleton_append]
    | false => rw [if_neg Bool.false_ne_true, if_neg Bool.false_ne_true, Text.bytes_nil]

/-! ### The readers have no faults -/

/-- The digits of a run are always a number. -/
theorem read_eq_ok {ds : List Char} (h : Run ds) : Number.read ds = .ok (numeral ds) := by
  obtain ⟨c, cs, rfl⟩ := List.exists_cons_of_ne_nil h.1
  have hc : c.isDigit = true := h.2 c List.mem_cons_self
  have hrun : Digits.run (c :: cs) = (c :: cs, []) := by
    have hstop : ∀ d ∈ ([] : List Char).head?, d.isDigit = false := by rintro _ ⟨⟩
    have hrun := Digits.run_append_stop h.2 hstop
    rwa [List.append_nil] at hrun
  have hmagnitude : Number.readMagnitude (c :: cs) = some ⟨Digits.toNat (c :: cs), 0⟩ := by
    rw [Number.readMagnitude, hrun]
    simp [Number.readPower]
  exact Number.read_of_isDigit (Number.splitSign_of_isDigit rfl hc) rfl hc hmagnitude

/-- The bytes of the digits end where the digits do. -/
theorem cut_digits (s : List Char) :
    cut s ((bytes s).takeWhile isDigit).length = .ok (Digits.run s) := by
  have hcut := cut_byteLength (Digits.run s).1 (Digits.run s).2
  rw [Digits.run_append] at hcut
  rw [ascii_isDigit.takeWhile_bytes, Text.length_bytes]
  exact hcut

theorem run_of_run_eq {s ds rest : List Char} (h : Digits.run s = (ds, rest)) (hne : ds ≠ []) :
    Run ds := by
  refine ⟨hne, ?_⟩
  intro c hc
  have hds : s.takeWhile Char.isDigit = ds := congrArg Prod.fst h
  exact List.all_eq_true.mp List.all_takeWhile c (hds ▸ hc)

theorem number_eq (s : List Char) : number s = OptionT.mk (.ok (Arguments.number s)) := by
  have hcut := cut_digits s
  have hlength : ((bytes s).takeWhile isDigit).length = byteLength (Digits.run s).1 := by
    rw [ascii_isDigit.takeWhile_bytes, Text.length_bytes]
    rfl
  rw [hlength] at hcut
  rw [number, hlength, Arguments.number]
  cases hrun : Digits.run s with
  | mk ds rest =>
    rw [hrun] at hcut
    cases ds with
    | nil => rfl
    | cons d ds =>
      have hread := read_eq_ok (run_of_run_eq hrun (List.cons_ne_nil d ds))
      have hpos : byteLength (d :: ds) ≠ 0 :=
        fun h => List.cons_ne_nil d ds (Text.byteLength_eq_zero_iff.mp h)
      change (if byteLength (d :: ds) = 0 then failure else do
        let r ← (cut s (byteLength (d :: ds)) : Except Fault _)
        match Number.read r.1 with
        | .ok x => return (x, r.2)
        | .error _ => failure : Reading (Float × List Char)) = _
      rw [if_neg hpos, hcut]
      change (match Number.read (d :: ds) with
        | .ok x => return (x, rest)
        | .error _ => failure : Reading (Float × List Char)) = _
      rw [hread]
      rfl

theorem upper_eq (s : List Char) : upper s = OptionT.mk (.ok (Arguments.upper s)) := by
  rw [upper, ascii_isUpper.head?_any]
  cases s with
  | nil => rfl
  | cons c s =>
    rw [Arguments.upper, List.head?_cons, Option.any_some]
    split_ifs with hc
    · have hone : byteLength [c] = 1 := by
        have := Text.length_bytes [c]
        rw [Text.bytes_cons, Text.utf8EncodeChar_of_lt (ascii_isUpper.char_lt c hc)] at this
        exact this.symm
      have hcut := cut_byteLength [c] s
      rw [hone, List.singleton_append] at hcut
      rw [hcut]
      rfl
    · rfl

/-- Readers that follow each other have no fault if none of them has. -/
theorem bind_eq {α β : Type} {x : Reading α} {o : Option α} {f : α → Reading β} {g : α → Option β}
    (hx : x = OptionT.mk (.ok o)) (hf : ∀ a, f a = OptionT.mk (.ok (g a))) :
    x >>= f = OptionT.mk (.ok (o.bind g)) := by
  subst hx
  cases o with
  | none => rfl
  | some a => exact hf a

theorem comma_eq (s : List Char) : comma s = OptionT.mk (.ok (Arguments.comma s)) := rfl

theorem pair_eq (s : List Char) : pair s = OptionT.mk (.ok (Arguments.pair s)) :=
  bind_eq (number_eq s) fun r => bind_eq (comma_eq r.2) fun s => bind_eq (number_eq s) fun _ => rfl

theorem triple_eq (s : List Char) : triple s = OptionT.mk (.ok (Arguments.triple s)) :=
  bind_eq (number_eq s) fun r => bind_eq (comma_eq r.2) fun s => bind_eq (number_eq s) fun r =>
    bind_eq (comma_eq r.2) fun s => bind_eq (number_eq s) fun _ => rfl

theorem upperNumber_eq (s : List Char) :
    upperNumber s = OptionT.mk (.ok (Arguments.upperNumber s)) :=
  bind_eq (upper_eq s) fun s => bind_eq (comma_eq s) fun s => bind_eq (number_eq s) fun _ => rfl

theorem upperPair_eq (s : List Char) : upperPair s = OptionT.mk (.ok (Arguments.upperPair s)) :=
  bind_eq (upper_eq s) fun s => bind_eq (comma_eq s) pair_eq

end Bytes

/-! ### What the readers find -/

variable {s : List Char}

theorem isSome_pair_iff : (pair s).isSome ↔ ∃ xs ys, Run xs ∧ Run ys ∧ xs ++ ',' :: ys <+: s := by
  simp only [Option.isSome_iff_exists, Prod.exists, pair_eq_some_iff, exists_beginsPair_iff]

theorem isSome_triple_iff : (triple s).isSome ↔
    ∃ xs ys zs, Run xs ∧ Run ys ∧ Run zs ∧ xs ++ ',' :: (ys ++ ',' :: zs) <+: s := by
  simp only [Option.isSome_iff_exists, Prod.exists, triple_eq_some_iff, exists_beginsTriple_iff]

theorem isSome_upperNumber_iff : (upperNumber s).isSome ↔
    ∃ c xs, c.isUpper = true ∧ Run xs ∧ c :: ',' :: xs <+: s := by
  simp only [Option.isSome_iff_exists, upperNumber_eq_some_iff, exists_beginsUpperNumber_iff]

theorem isSome_upperPair_iff : (upperPair s).isSome ↔
    ∃ c xs ys, c.isUpper = true ∧ Run xs ∧ Run ys ∧ c :: ',' :: (xs ++ ',' :: ys) <+: s := by
  simp only [Option.isSome_iff_exists, Prod.exists, upperPair_eq_some_iff,
    exists_beginsUpperPair_iff]

/-- A position moves the cursor if it can be read, and a font changes its size; nothing else
changes. -/
theorem cursor_spec (c : Cursor) (s : List Char) :
    (∀ x y, pair s = some (x, y) → c.moveTo s = { c with x := x * c.scale, y := y * c.scale }) ∧
      (pair s = none → c.moveTo s = c) ∧
      (∀ height width, upperPair s = some (height, width) →
        c.selectFont s = { c with fontSize := height * c.scale }) ∧
      (upperPair s = none → c.selectFont s = c) := by
  refine ⟨?_, ?_, ?_, ?_⟩
  · intro x y h
    rw [Cursor.moveTo, h]
  · intro h
    rw [Cursor.moveTo, h]
  · intro height width h
    rw [Cursor.selectFont, h]
  · intro h
    rw [Cursor.selectFont, h]

/-- Each reader of arguments finds something exactly if the text begins with its form, whatever
follows; the numbers are those of the longest runs of digits, which always are numbers. By bytes the
same is read, and no character is cut in two. The cursor takes what is read of it and keeps
everything else. -/
theorem readers_exact (s : List Char) :
    (Bytes.pair s = OptionT.mk (.ok (pair s)) ∧ Bytes.triple s = OptionT.mk (.ok (triple s)) ∧
        Bytes.upperNumber s = OptionT.mk (.ok (upperNumber s)) ∧
        Bytes.upperPair s = OptionT.mk (.ok (upperPair s))) ∧
      (∀ ds, Run ds → Number.read ds = .ok (numeral ds)) ∧
      (((pair s).isSome ↔ ∃ xs ys, Run xs ∧ Run ys ∧ xs ++ ',' :: ys <+: s) ∧
        ∀ x y, pair s = some (x, y) ↔ BeginsPair s x y) ∧
      (((triple s).isSome ↔
          ∃ xs ys zs, Run xs ∧ Run ys ∧ Run zs ∧ xs ++ ',' :: (ys ++ ',' :: zs) <+: s) ∧
        ∀ x y z, triple s = some (x, y, z) ↔ BeginsTriple s x y z) ∧
      (((upperNumber s).isSome ↔ ∃ c xs, c.isUpper = true ∧ Run xs ∧ c :: ',' :: xs <+: s) ∧
        ∀ x, upperNumber s = some x ↔ BeginsUpperNumber s x) ∧
      (((upperPair s).isSome ↔ ∃ c xs ys, c.isUpper = true ∧ Run xs ∧ Run ys ∧
          c :: ',' :: (xs ++ ',' :: ys) <+: s) ∧
        ∀ x y, upperPair s = some (x, y) ↔ BeginsUpperPair s x y) ∧
      ∀ c : Cursor,
        (∀ x y, pair s = some (x, y) →
            c.moveTo s = { c with x := x * c.scale, y := y * c.scale }) ∧
          (pair s = none → c.moveTo s = c) ∧
          (∀ height width, upperPair s = some (height, width) →
            c.selectFont s = { c with fontSize := height * c.scale }) ∧
          (upperPair s = none → c.selectFont s = c) := by
  refine ⟨⟨?_, ?_, ?_, ?_⟩, fun ds => Bytes.read_eq_ok, ⟨isSome_pair_iff, fun _ _ => ?_⟩,
    ⟨isSome_triple_iff, fun _ _ _ => ?_⟩, ⟨isSome_upperNumber_iff, fun _ => ?_⟩,
    ⟨isSome_upperPair_iff, fun _ _ => ?_⟩, fun c => cursor_spec c s⟩
  · exact Bytes.pair_eq s
  · exact Bytes.triple_eq s
  · exact Bytes.upperNumber_eq s
  · exact Bytes.upperPair_eq s
  · exact pair_eq_some_iff
  · exact triple_eq_some_iff
  · exact upperNumber_eq_some_iff
  · exact upperPair_eq_some_iff

end LabelFleet.Markup.Arguments
