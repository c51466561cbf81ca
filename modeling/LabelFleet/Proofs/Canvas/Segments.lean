import LabelFleet.Text.Search

/-! HTML as a list of tags, each with the text behind it. The tags can be told apart as long as no
tag and no text holds a bracket of its own. -/
namespace LabelFleet.Canvas

open Text (begins after?)

/-- The characters that open and close tags and attribute values. -/
def isDelimiter (c : Char) : Bool := c == '<' || c == '>' || c == '"'

theorem isDelimiter_iff {c : Char} : isDelimiter c = true ↔ c = '<' ∨ c = '>' ∨ c = '"' := by
  simp only [isDelimiter, Bool.or_eq_true, beq_iff_eq, or_assoc]

def delimiters (s : List Char) : List Char := s.filter isDelimiter

@[simp] theorem delimiters_append (s t : List Char) :
    delimiters (s ++ t) = delimiters s ++ delimiters t := List.filter_append s t

@[simp] theorem delimiters_nil : delimiters [] = [] := rfl

theorem delimiters_eq_nil_iff {s : List Char} :
    delimiters s = [] ↔ ∀ c ∈ s, isDelimiter c = false := by
  simp only [delimiters, List.filter_eq_nil_iff, Bool.not_eq_true]

theorem mem_delimiters_iff {d : Char} {s : List Char} :
    d ∈ delimiters s ↔ d ∈ s ∧ isDelimiter d = true := List.mem_filter

/-- A tag without its brackets, and the text behind it up to the next tag. -/
structure Segment where
  tag : List Char
  text : List Char

namespace Segment

def written (s : Segment) : List Char := '<' :: (s.tag ++ '>' :: s.text)

/-- No bracket stands in the tag and no delimiter at all in the text. -/
structure WellFormed (s : Segment) : Prop where
  quotes : ∀ d ∈ delimiters s.tag, d = '"'
  plain : delimiters s.text = []

theorem WellFormed.closing_not_mem {s : Segment} (h : s.WellFormed) : '>' ∉ s.tag := by
  intro hmem
  have hd := h.quotes '>' (mem_delimiters_iff.mpr ⟨hmem, rfl⟩)
  contradiction

theorem WellFormed.opening_not_mem {s : Segment} (h : s.WellFormed) :
    '<' ∉ s.tag ++ '>' :: s.text := by
  intro hmem
  rcases List.mem_append.mp hmem with htag | htext
  · have hd := h.quotes '<' (mem_delimiters_iff.mpr ⟨htag, rfl⟩)
    contradiction
  · have htext : '<' ∈ s.text := (List.mem_cons.mp htext).resolve_left (by decide)
    have hd := mem_delimiters_iff.mpr ⟨htext, rfl⟩
    rw [h.plain] at hd
    contradiction

/-- What stands between two tags' opening brackets, split at the closing one. -/
def ofPiece (p : List Char) : Segment :=
  ⟨p.takeWhile (· != '>'), (p.dropWhile (· != '>')).drop 1⟩

theorem ofPiece_append {tag : List Char} (h : '>' ∉ tag) (text : List Char) :
    ofPiece (tag ++ '>' :: text) = ⟨tag, text⟩ := by
  have hall : ∀ c ∈ tag, (c != '>') = true := by
    intro c hc
    rw [bne_iff_ne]
    rintro rfl
    exact h hc
  rw [ofPiece, List.takeWhile_append_of_pos hall, List.dropWhile_append_of_pos hall]
  simp

/-- The class of the block that a tag opens. -/
def class? (s : Segment) : Option String :=
  (after? "div class=\"".toList s.tag).map fun rest => String.ofList (rest.takeWhile (· != '"'))

end Segment

def written (ss : List Segment) : List Char := ss.flatMap Segment.written

theorem written_append (ss ts : List Segment) : written (ss ++ ts) = written ss ++ written ts :=
  List.flatMap_append

theorem written_cons (s : Segment) (ss : List Segment) :
    written (s :: ss) = s.written ++ written ss := List.flatMap_cons

/-- The tags of a text with what stands behind each. -/
def segments (html : List Char) : List Segment := (html.splitOn '<').tail.map Segment.ofPiece

theorem splitOn_written {ss : List Segment} (h : ∀ s ∈ ss, s.WellFormed) {front : List Char}
    (hfront : '<' ∉ front) :
    (front ++ written ss).splitOn '<' = front :: ss.map fun s => s.tag ++ '>' :: s.text := by
  induction ss generalizing front with
  | nil => simpa [written] using List.splitOn_eq_singleton hfront
  | cons s ss ih =>
    have hpiece := (h s List.mem_cons_self).opening_not_mem
    rw [written_cons, Segment.written, List.cons_append,
      List.splitOn_append_cons_self_of_not_mem hfront,
      ih (fun t ht => h t (List.mem_cons_of_mem s ht)) hpiece, List.map_cons]

/-- Well-formed tags and texts are read back from what is written. -/
theorem segments_written {ss : List Segment} (h : ∀ s ∈ ss, s.WellFormed) :
    segments (written ss) = ss := by
  have hsplit : (written ss).splitOn '<' = [] :: ss.map fun s => s.tag ++ '>' :: s.text :=
    splitOn_written h List.not_mem_nil
  have hback : ∀ s ∈ ss, Segment.ofPiece (s.tag ++ '>' :: s.text) = s := by
    intro s hs
    exact Segment.ofPiece_append (h s hs).closing_not_mem s.text
  rw [segments, hsplit, List.tail_cons, List.map_map]
  exact (List.map_congr_left hback).trans (List.map_id ss)

theorem delimiters_written {ss : List Segment} (h : ∀ s ∈ ss, s.WellFormed) :
    delimiters (written ss) =
      (ss.map Segment.tag).flatMap fun tag => '<' :: (delimiters tag ++ ['>']) := by
  induction ss with
  | nil => rfl
  | cons s ss ih =>
    have hplain : s.text.filter isDelimiter = [] := (h s List.mem_cons_self).plain
    have hs : delimiters s.written = '<' :: (delimiters s.tag ++ ['>']) := by
      simp [Segment.written, delimiters, isDelimiter, hplain]
    rw [written_cons, delimiters_append, ih fun t ht => h t (List.mem_cons_of_mem s ht), hs,
      List.map_cons, List.flatMap_cons]

/-- At how many places of a text another one stands. -/
def occurrences (part : List Char) : List Char → Nat
  | [] => if part.isEmpty then 1 else 0
  | c :: s => (if begins part (c :: s) then 1 else 0) + occurrences part s

theorem occurrences_append {c : Char} {part front : List Char} (h : c ∉ front) (s : List Char) :
    occurrences (c :: part) (front ++ s) = occurrences (c :: part) s := by
  induction front with
  | nil => rfl
  | cons d front ih =>
    rw [List.mem_cons, not_or] at h
    have hbegins : begins (c :: part) (d :: (front ++ s)) = false := by
      simp [begins, after?, h.1]
    rw [List.cons_append, occurrences, hbegins, ih h.2]
    simp

theorem begins_append_cons {c : Char} {part : List Char} (h : c ∉ part) (s t : List Char) :
    begins part (s ++ c :: t) = begins part s := by
  induction part generalizing s with
  | nil => rfl
  | cons d part ih =>
    rw [List.mem_cons, not_or] at h
    cases s with
    | nil => simp [begins, after?, Ne.symm h.1]
    | cons e s =>
      by_cases hd : d = e
      · simpa [begins, after?, hd] using ih h.2 s
      · simp [begins, after?, hd]

/-- A part that begins with an opening bracket and holds no closing one can only stand where a tag
begins. -/
theorem occurrences_written {part : List Char} (hpart : '>' ∉ part) {ss : List Segment}
    (h : ∀ s ∈ ss, s.WellFormed) :
    occurrences ('<' :: part) (written ss) = ss.countP fun s => begins part s.tag := by
  induction ss with
  | nil => rfl
  | cons s ss ih =>
    have hpiece := (h s List.mem_cons_self).opening_not_mem
    have hbegins : begins ('<' :: part) ('<' :: (s.tag ++ '>' :: s.text ++ written ss)) =
        begins part s.tag := by
      rw [List.append_assoc, List.cons_append,
        ← begins_append_cons hpart s.tag (s.text ++ written ss)]
      simp [begins, after?]
    rw [written_cons, Segment.written, List.cons_append, occurrences, hbegins,
      occurrences_append hpiece, ih fun t ht => h t (List.mem_cons_of_mem s ht), List.countP_cons,
      Nat.add_comm]

end LabelFleet.Canvas
