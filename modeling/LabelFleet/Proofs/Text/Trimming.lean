import LabelFleet.Text.Blank

/-! What trimming takes off a text and what it leaves. -/
namespace LabelFleet.Text

/-- `text` is `raw` without the blank characters at its end. -/
def TrimmedEnd (raw text : List Char) : Prop :=
  ∃ blanks, raw = text ++ blanks ∧ (∀ c ∈ blanks, isBlank c = true) ∧
    ∀ c ∈ text.getLast?, isBlank c = false

theorem trimEnd_cons_of_not_blank {c : Char} (h : isBlank c = false) (s : List Char) :
    trimEnd (c :: s) = c :: trimEnd s := by
  rw [trimEnd_cons, if_neg (by simp [h])]

/-- Trimming takes off all the blank characters at the end and nothing else. -/
theorem trimmedEnd_trimEnd (s : List Char) : TrimmedEnd s (trimEnd s) := by
  induction s with
  | nil => exact ⟨[], by simp, by simp, by simp⟩
  | cons c s ih =>
    obtain ⟨blanks, hs, hb, hlast⟩ := ih
    rw [trimEnd_cons]
    split
    · next h =>
      rw [h.1, List.nil_append] at hs
      refine ⟨c :: s, rfl, ?_, by simp⟩
      intro d hd
      rcases List.mem_cons.mp hd with rfl | hd
      · exact h.2
      · exact hb d (hs ▸ hd)
    · next h =>
      refine ⟨blanks, by rw [List.cons_append, ← hs], hb, ?_⟩
      cases ht : trimEnd s with
      | nil =>
        intro d hd
        have hd : c = d := by simpa using hd
        rw [ht] at h
        simpa [hd] using h
      | cons d t => rwa [ht, ← List.getLast?_cons_cons (a := c)] at hlast

theorem trimEnd_prefix_self (s : List Char) : trimEnd s <+: s := by
  obtain ⟨blanks, hs, -⟩ := trimmedEnd_trimEnd s
  exact ⟨blanks, hs.symm⟩

theorem mem_of_mem_trimEnd {c : Char} {s : List Char} (h : c ∈ trimEnd s) : c ∈ s := by
  obtain ⟨blanks, hs, -⟩ := trimmedEnd_trimEnd s
  rw [hs]
  exact List.mem_append_left blanks h

/-- No blank character stands at either end. -/
def Unpadded (s : List Char) : Prop :=
  (∀ c ∈ s.head?, isBlank c = false) ∧ ∀ c ∈ s.getLast?, isBlank c = false

theorem trimStart_of_head {s : List Char} (h : ∀ c ∈ s.head?, isBlank c = false) :
    trimStart s = s := by
  cases s with
  | nil => rfl
  | cons c s => exact List.dropWhile_cons_of_neg (by simp [h c rfl])

theorem trimEnd_of_getLast {s : List Char} (h : ∀ c ∈ s.getLast?, isBlank c = false) :
    trimEnd s = s := by
  obtain ⟨blanks, hs, hblank, -⟩ := trimmedEnd_trimEnd s
  rcases List.eq_nil_or_concat blanks with rfl | ⟨front, c, rfl⟩
  · rw [List.append_nil] at hs
    exact hs.symm
  · rw [List.concat_eq_append] at hs hblank
    have hlast : c ∈ s.getLast? := by
      rw [hs, ← List.append_assoc, List.getLast?_concat]
      rfl
    have hc := hblank c (List.mem_append_right _ List.mem_cons_self)
    rw [h c hlast] at hc
    contradiction

theorem trim_of_unpadded {s : List Char} (h : Unpadded s) : trim s = s := by
  rw [trim, trimEnd_of_getLast h.2, trimStart_of_head h.1]

@[simp] theorem trimEnd_trimEnd (s : List Char) : trimEnd (trimEnd s) = trimEnd s := by
  obtain ⟨blanks, -, -, hlast⟩ := trimmedEnd_trimEnd s
  exact trimEnd_of_getLast hlast

/-- Blank characters behind a text are trimmed away as if they were not there. -/
theorem trimEnd_append_of_blank (s : List Char) {blanks : List Char}
    (h : ∀ c ∈ blanks, isBlank c = true) : trimEnd (s ++ blanks) = trimEnd s := by
  induction s with
  | nil =>
    induction blanks with
    | nil => rfl
    | cons c blanks ih =>
      have hrest := ih fun d hd => h d (List.mem_cons_of_mem c hd)
      rw [List.nil_append] at hrest ⊢
      rw [trimEnd_cons, if_pos ⟨hrest, h c List.mem_cons_self⟩]
      rfl
  | cons c s ih => rw [List.cons_append, trimEnd_cons, trimEnd_cons, ih]

theorem trimmedEnd_iff {raw text : List Char} : TrimmedEnd raw text ↔ trimEnd raw = text := by
  constructor
  · rintro ⟨blanks, rfl, hblank, hlast⟩
    rw [trimEnd_append_of_blank text hblank, trimEnd_of_getLast hlast]
  · rintro rfl
    exact trimmedEnd_trimEnd raw

/-- Trimming the end stops at the last character that is not blank. -/
theorem trimEnd_append_of_not_blank {s : List Char} (h : ∀ c ∈ s, isBlank c = false)
    (t : List Char) : trimEnd (s ++ t) = s ++ trimEnd t := by
  induction s with
  | nil => rfl
  | cons c s ih =>
    rw [List.cons_append, trimEnd_cons_of_not_blank (h c List.mem_cons_self),
      ih fun d hd => h d (.tail c hd), List.cons_append]

theorem trim_append_of_blank (s : List Char) {blanks : List Char}
    (h : ∀ c ∈ blanks, isBlank c = true) : trim (s ++ blanks) = trim s := by
  rw [trim, trimEnd_append_of_blank s h, trim]

/-- `text` is `raw` without the blank characters at its ends. -/
def Trimmed (raw text : List Char) : Prop :=
  ∃ front back, raw = front ++ text ++ back ∧ (∀ c ∈ front, isBlank c = true) ∧
    (∀ c ∈ back, isBlank c = true) ∧ Unpadded text

/-- Trimming takes off all the blank characters at both ends and nothing else. -/
theorem trimmed_trim (s : List Char) : Trimmed s (trim s) := by
  obtain ⟨back, hs, hback, hlast⟩ := trimmedEnd_trimEnd s
  have hsplit : (trimEnd s).takeWhile isBlank ++ trim s = trimEnd s :=
    List.takeWhile_append_dropWhile
  refine ⟨(trimEnd s).takeWhile isBlank, back, by rw [hsplit, ← hs], ?_, hback, ?_, ?_⟩
  · exact fun c hc => List.all_eq_true.mp List.all_takeWhile c hc
  · intro c hc
    have hhead := List.head?_dropWhile_not isBlank (trimEnd s)
    rw [← trimStart, ← trim, Option.mem_def.mp hc] at hhead
    simpa using hhead
  · intro c hc
    apply hlast
    rw [← hsplit, List.getLast?_append, Option.mem_def.mp hc]
    rfl

theorem trimmed_iff {raw text : List Char} : Trimmed raw text ↔ trim raw = text := by
  constructor
  · rintro ⟨front, back, rfl, hfront, hback, hhead, hlast⟩
    rw [trim_append_of_blank _ hback]
    cases text with
    | nil =>
      rw [← List.nil_append (front ++ []), List.append_nil, trim_append_of_blank [] hfront]
      rfl
    | cons c text =>
      have hend : ∀ d ∈ (front ++ c :: text).getLast?, isBlank d = false := by
        rw [List.getLast?_append, List.getLast?_cons, Option.some_or, ← List.getLast?_cons]
        exact hlast
      rw [trim, trimEnd_of_getLast hend, trimStart, List.dropWhile_append_of_pos hfront]
      exact trimStart_of_head hhead
  · rintro rfl
    exact trimmed_trim raw

theorem trim_eq_nil_iff {s : List Char} : trim s = [] ↔ ∀ c ∈ s, isBlank c = true := by
  constructor
  · intro h
    obtain ⟨front, back, hs, hfront, hback, -⟩ := trimmed_trim s
    rw [h, List.append_nil] at hs
    intro c hc
    rw [hs, List.mem_append] at hc
    exact hc.elim (hfront c) (hback c)
  · intro h
    rw [← List.nil_append s, trim_append_of_blank [] h]
    rfl

/-- Every character of the text is blank; the empty text is blank too. -/
def Blank (s : String) : Prop := ∀ c ∈ s.toList, isBlank c = true

instance (s : String) : Decidable (Blank s) := inferInstanceAs (Decidable (∀ c ∈ s.toList, _))

theorem isEmpty_trim_iff {s : String} : (trim s.toList).isEmpty = true ↔ Blank s := by
  rw [List.isEmpty_iff, trim_eq_nil_iff, Blank]

theorem allBlank_iff {s : String} : allBlank s.toList = true ↔ Blank s := List.all_eq_true

theorem unpadded_of_forall {s : List Char} (h : ∀ c ∈ s, isBlank c = false) : Unpadded s :=
  ⟨fun c hc => h c (List.mem_of_mem_head? hc), fun c hc => h c (List.mem_of_getLast? hc)⟩

/-- Whether a text is padded can be seen from its ends. -/
theorem unpadded_of_ends {s : List Char} (hhead : s.head?.any isBlank = false)
    (hlast : s.getLast?.any isBlank = false) : Unpadded s := by
  rw [Option.any_eq_false] at hhead hlast
  exact ⟨fun c hc => by simpa using hhead c hc, fun c hc => by simpa using hlast c hc⟩

theorem Unpadded.append {s t : List Char} (hs : Unpadded s) (ht : Unpadded t) :
    Unpadded (s ++ t) := by
  constructor
  · cases s with
    | nil => exact ht.1
    | cons c s => exact hs.1
  · rcases List.eq_nil_or_concat t with rfl | ⟨t, c, rfl⟩
    · rw [List.append_nil]
      exact hs.2
    · rw [List.concat_eq_append, ← List.append_assoc, List.getLast?_concat]
      simpa using ht.2

theorem Unpadded.intercalate {separator : List Char} (hseparator : Unpadded separator)
    {parts : List (List Char)} (h : ∀ p ∈ parts, Unpadded p) :
    Unpadded (separator.intercalate parts) := by
  induction parts with
  | nil => exact unpadded_of_forall (by simp)
  | cons p parts ih =>
    have hp : Unpadded p := h p List.mem_cons_self
    cases parts with
    | nil => rwa [List.intercalate_singleton]
    | cons q parts =>
      have hrest := ih fun r hr => h r (List.mem_cons_of_mem p hr)
      rw [List.intercalate_cons_cons]
      exact (hp.append hseparator).append hrest

theorem trim_append_lineFeed (s : List Char) : trim (s ++ ['\n']) = trim s := by
  apply trim_append_of_blank
  intro c hc
  rw [List.mem_singleton.mp hc]
  rfl

theorem isUpper_iff {c : Char} : c.isUpper = true ↔ 65 ≤ c.toNat ∧ c.toNat ≤ 90 := by
  have hupper : c.isUpper = decide (65 ≤ c.val ∧ c.val ≤ 90) := rfl
  simp [hupper, UInt32.le_iff_toNat_le, ← Char.toNat_val]

theorem isLower_iff {c : Char} : c.isLower = true ↔ 97 ≤ c.toNat ∧ c.toNat ≤ 122 := by
  have hlower : c.isLower = (decide (97 ≤ c.val) && decide (c.val ≤ 122)) := rfl
  simp [hlower, UInt32.le_iff_toNat_le, ← Char.toNat_val]

theorem isAlpha_iff {c : Char} :
    c.isAlpha = true ↔ 65 ≤ c.toNat ∧ c.toNat ≤ 90 ∨ 97 ≤ c.toNat ∧ c.toNat ≤ 122 := by
  have halpha : c.isAlpha = (c.isUpper || c.isLower) := rfl
  rw [halpha, Bool.or_eq_true, isUpper_iff, isLower_iff]

theorem isDigit_iff {c : Char} : c.isDigit = true ↔ 48 ≤ c.toNat ∧ c.toNat ≤ 57 := by
  simp [Char.isDigit, UInt32.le_iff_toNat_le, ← Char.toNat_val]

theorem isAlphanum_iff {c : Char} : c.isAlphanum = true ↔ c.isAlpha = true ∨ c.isDigit = true := by
  simp [Char.isAlphanum]

/-- The code points with the Unicode property `White_Space`. -/
def whiteSpace : List Nat :=
  [0x9, 0xa, 0xb, 0xc, 0xd, 0x20, 0x85, 0xa0, 0x1680, 0x2000, 0x2001, 0x2002, 0x2003, 0x2004,
    0x2005, 0x2006, 0x2007, 0x2008, 0x2009, 0x200a, 0x2028, 0x2029, 0x202f, 0x205f, 0x3000]

theorem isBlank_iff {c : Char} : isBlank c = true ↔ c.toNat ∈ whiteSpace := by
  simp [isBlank, whiteSpace]
  omega

theorem not_isBlank_of_isAlphanum {c : Char} (h : c.isAlphanum = true) : isBlank c = false := by
  rw [isAlphanum_iff, isAlpha_iff, isDigit_iff] at h
  rw [Bool.eq_false_iff, Ne, isBlank_iff]
  simp [whiteSpace]
  omega

end LabelFleet.Text
