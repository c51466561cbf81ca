import LabelFleet.Text.Search
import Mathlib.Data.List.Infix

/-! What is found in a text: its beginnings, its parts, and the pieces between separators. -/
namespace LabelFleet.Text

theorem begins_iff {start s : List Char} : begins start s = true ↔ start <+: s := by
  rw [begins, Option.isSome_iff_exists]
  constructor
  · rintro ⟨rest, h⟩
    exact ⟨rest, (after?_eq_some_iff.mp h).symm⟩
  · rintro ⟨rest, h⟩
    exact ⟨rest, after?_eq_some_iff.mpr h.symm⟩

theorem occurs_iff {part s : List Char} : occurs part s = true ↔ part <:+: s := by
  induction s with
  | nil => rw [occurs, List.isEmpty_iff, List.infix_nil]
  | cons c s ih => rw [occurs, Bool.or_eq_true, begins_iff, ih, List.infix_cons_iff]

/-! ### Pieces -/

theorem pieces_of_not_mem {c : Char} {s : List Char} (h : c ∉ s) : pieces c s = [s] := by
  induction s with
  | nil => rfl
  | cons d s ih =>
    rw [List.mem_cons, not_or] at h
    rw [pieces, if_neg (Ne.symm h.1), ih h.2]

/-- A separator ends the first piece. -/
theorem pieces_append {c : Char} {front : List Char} (h : c ∉ front) (s : List Char) :
    pieces c (front ++ c :: s) = front :: pieces c s := by
  induction front with
  | nil => exact if_pos rfl
  | cons d front ih =>
    rw [List.mem_cons, not_or] at h
    rw [List.cons_append, pieces, if_neg (Ne.symm h.1), ih h.2]

/-- Texts without separators are the pieces of what they make up with a separator between them. -/
theorem pieces_intercalate {c : Char} {parts : List (List Char)} (hne : parts ≠ [])
    (h : ∀ p ∈ parts, c ∉ p) : pieces c ([c].intercalate parts) = parts := by
  induction parts with
  | nil => contradiction
  | cons p parts ih =>
    have hp : c ∉ p := h p List.mem_cons_self
    cases parts with
    | nil => rw [List.intercalate_singleton, pieces_of_not_mem hp]
    | cons q parts =>
      have hrest := ih (List.cons_ne_nil q parts) fun r hr => h r (List.mem_cons_of_mem p hr)
      rw [List.intercalate_cons_cons, List.append_assoc, List.singleton_append, pieces_append hp,
        hrest]

/-- A text is cut at every separator and nowhere else. -/
theorem pieces_eq_iff {c : Char} {s : List Char} {parts : List (List Char)} :
    pieces c s = parts ↔
      parts ≠ [] ∧ (∀ p ∈ parts, c ∉ p) ∧ [c].intercalate parts = s := by
  constructor
  · rintro rfl
    induction s with
    | nil => simp [pieces]
    | cons d s ih =>
      obtain ⟨hne, hsep, hjoin⟩ := ih
      obtain ⟨p, ps, hcons⟩ := List.exists_cons_of_ne_nil hne
      rw [pieces]
      split
      · next h =>
        refine ⟨List.cons_ne_nil _ _, List.forall_mem_cons.mpr ⟨List.not_mem_nil, hsep⟩, ?_⟩
        rw [hcons, List.intercalate_cons_cons, ← hcons, hjoin, h]
        rfl
      · next h =>
        rw [hcons] at hsep hjoin ⊢
        obtain ⟨hp, hps⟩ := List.forall_mem_cons.mp hsep
        refine ⟨List.cons_ne_nil _ _, List.forall_mem_cons.mpr ⟨?_, hps⟩, ?_⟩
        · rw [List.mem_cons, not_or]
          exact ⟨Ne.symm h, hp⟩
        · rw [← hjoin]
          cases ps <;> simp [List.intercalate_cons_cons]
  · rintro ⟨hne, hsep, rfl⟩
    exact pieces_intercalate hne hsep

theorem splitLast?_of_not_mem {c : Char} {s : List Char} (h : c ∉ s) : splitLast? c s = none := by
  induction s with
  | nil => rfl
  | cons d s ih =>
    rw [List.mem_cons, not_or] at h
    rw [splitLast?, ih h.2]
    exact if_neg (Ne.symm h.1)

theorem splitLast?_append {c : Char} (front : List Char) {back : List Char} (h : c ∉ back) :
    splitLast? c (front ++ c :: back) = some (front, back) := by
  induction front with
  | nil =>
    rw [List.nil_append, splitLast?, splitLast?_of_not_mem h]
    exact if_pos rfl
  | cons d front ih => rw [List.cons_append, splitLast?, ih]

/-! ### Spans -/

variable {p : Char → Bool} {front rest : List Char}

theorem takeWhile_append_stop (hfront : ∀ c ∈ front, p c = true)
    (hrest : ∀ c ∈ rest.head?, p c = false) : (front ++ rest).takeWhile p = front := by
  rw [List.takeWhile_append_of_pos hfront]
  cases rest with
  | nil => simp
  | cons c rest => simp [hrest c (by simp)]

theorem dropWhile_append_stop (hfront : ∀ c ∈ front, p c = true)
    (hrest : ∀ c ∈ rest.head?, p c = false) : (front ++ rest).dropWhile p = rest := by
  rw [List.dropWhile_append_of_pos hfront]
  cases rest with
  | nil => rfl
  | cons c rest => simp [hrest c (by simp)]

theorem takeWhile_append_cons {c : Char} (h : p c = false) (s t : List Char) :
    (s ++ c :: t).takeWhile p = s.takeWhile p := by
  induction s with
  | nil => simp [h]
  | cons d s ih => rw [List.cons_append, List.takeWhile_cons, List.takeWhile_cons, ih]

theorem dropWhile_append_cons {c : Char} (h : p c = false) (s t : List Char) :
    (s ++ c :: t).dropWhile p = s.dropWhile p ++ c :: t := by
  induction s with
  | nil => simp [h]
  | cons d s ih =>
    rw [List.cons_append, List.dropWhile_cons, List.dropWhile_cons, ih]
    split <;> rfl

theorem char?_append {c d : Char} (h : d ≠ c) (s t : List Char) :
    char? d (s ++ c :: t) = (char? d s).map (· ++ c :: t) := by
  cases s with
  | nil => exact if_neg h
  | cons e s =>
    change (if d = e then some (s ++ c :: t) else none) = (if d = e then some s else none).map _
    split <;> rfl

end LabelFleet.Text
