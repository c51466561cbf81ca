import LabelFleet.Proofs.Printer.History
import LabelFleet.Proofs.Text.Replacement

/-! Labels that reach an emulated printer over a line, which hands them over in chunks of any
length up to a limit. The printer looks at each chunk by itself, so it counts a label only if the
chunk with the end of the label lets it. -/
namespace LabelFleet.Printer

/-! ### Ends of labels -/

/-- The bytes that start a label. -/
def opening : List UInt8 := Utf8.encode "^XA".toList

/-- The bytes that end a label. -/
def closing : List UInt8 := Utf8.encode "^XZ".toList

theorem opening_eq : opening = [94, 88, 65] := by decide

theorem closing_eq : closing = [94, 88, 90] := by decide

theorem closing_append (b : List UInt8) : closing ++ b = 94 :: 88 :: 90 :: b := by
  rw [closing_eq]
  rfl

/-- In how many places of the bytes a label ends. -/
def closings : List UInt8 → Nat
  | [] => 0
  | b :: bs => (if closing <+: b :: bs then 1 else 0) + closings bs

theorem closings_eq_zero_iff {bytes : List UInt8} : closings bytes = 0 ↔ ¬ closing <:+: bytes := by
  induction bytes with
  | nil => exact iff_of_true rfl (by decide)
  | cons b bytes ih =>
    rw [closings, Nat.add_eq_zero_iff, ih, List.infix_cons_iff, not_or]
    simp

theorem closings_pos_iff {bytes : List UInt8} : 0 < closings bytes ↔ closing <:+: bytes := by
  rw [Nat.pos_iff_ne_zero, ne_eq, closings_eq_zero_iff, not_not]

/-- Bytes that are cut in two keep at most the ends that they had. -/
theorem closings_add_le (a b : List UInt8) : closings a + closings b ≤ closings (a ++ b) := by
  induction a with
  | nil => exact (Nat.zero_add _).le
  | cons x a ih =>
    have hstart : closing <+: x :: a → closing <+: x :: (a ++ b) :=
      fun h => h.trans (List.prefix_append (x :: a) b)
    rw [List.cons_append, closings, closings]
    split_ifs with h1 h2
    · omega
    · exact absurd (hstart h1) h2
    · omega
    · omega

/-- A mark of three bytes that starts in front of a caret also ends in front of it. -/
theorem prefix_append_caret {m k : UInt8} (hm : m ≠ 94) (hk : k ≠ 94) {a : List UInt8} (ha : a ≠ [])
    (b : List UInt8) : [94, m, k] <+: a ++ 94 :: b ↔ [94, m, k] <+: a := by
  match a with
  | [x] => simp [List.cons_prefix_cons, hm]
  | [x, y] => simp [List.cons_prefix_cons, hk]
  | x :: y :: z :: a => simp [List.cons_prefix_cons]

theorem closings_append_caret (a b : List UInt8) :
    closings (a ++ 94 :: b) = closings a + closings (94 :: b) := by
  induction a with
  | nil => exact (Nat.zero_add _).symm
  | cons x a ih =>
    have hstart : closing <+: x :: a ++ 94 :: b ↔ closing <+: x :: a :=
      prefix_append_caret (by decide) (by decide) (List.cons_ne_nil x a) b
    rw [List.cons_append] at hstart
    rw [List.cons_append, closings, closings, ih, Nat.add_assoc]
    simp only [hstart]

theorem closings_cons_of_ne {b : UInt8} (h : b ≠ 94) (bs : List UInt8) :
    closings (b :: bs) = closings bs := by
  rw [closings, closing_eq, if_neg fun hstart => h (List.cons_prefix_cons.mp hstart).1.symm,
    Nat.zero_add]

theorem closings_append_closing (a b : List UInt8) :
    closings (a ++ closing ++ b) = closings a + 1 + closings b := by
  have hnext : closings (closing ++ b) = 1 + closings b := by
    have hcaret : closing <+: 94 :: 88 :: 90 :: b := closing_append b ▸ List.prefix_append closing b
    rw [closing_append, closings, closings_cons_of_ne (by decide), closings_cons_of_ne (by decide),
      if_pos hcaret]
  rw [List.append_assoc, closing_append, closings_append_caret, ← closing_append, hnext,
    Nat.add_assoc]

/-! ### Whole labels -/

/-- Bytes that start and end as a label, and do so once. -/
structure Whole (label : List UInt8) : Prop where
  starts : opening <+: label
  ends : closing <:+ label
  starts_once : ¬ opening <:+: label.tail
  ends_once : ¬ closing <:+: label.dropLast

instance : DecidablePred Whole := fun label =>
  decidable_of_iff (opening <+: label ∧ closing <:+ label ∧ ¬ opening <:+: label.tail ∧
      ¬ closing <:+: label.dropLast)
    ⟨fun ⟨starts, ends, starts_once, ends_once⟩ => { starts, ends, starts_once, ends_once },
      fun h => ⟨h.starts, h.ends, h.starts_once, h.ends_once⟩⟩

namespace Whole

variable {label : List UInt8}

/-- A label without its end contains no end. -/
theorem exists_body (h : Whole label) : ∃ body, label = body ++ closing ∧ closings body = 0 := by
  obtain ⟨body, rfl⟩ := h.ends
  refine ⟨body, rfl, closings_eq_zero_iff.mpr fun hbody => h.ends_once ?_⟩
  rw [List.dropLast_append_of_ne_nil (by decide)]
  exact hbody.trans (List.prefix_append body _).isInfix

theorem eq_nil_of_opening {front rest : List UInt8} (h : Whole (front ++ rest))
    (hrest : opening <+: rest) : front = [] := by
  cases front with
  | nil => rfl
  | cons b front =>
    exact absurd (hrest.isInfix.trans (List.suffix_append front rest).isInfix) h.starts_once

end Whole

variable {labels : List (List UInt8)}

/-- No end arises where one label follows another. -/
theorem closings_flatten (h : ∀ label ∈ labels, Whole label) :
    closings labels.flatten = labels.length := by
  induction labels with
  | nil => rfl
  | cons label labels ih =>
    obtain ⟨hlabel, hlabels⟩ := List.forall_mem_cons.mp h
    obtain ⟨body, rfl, hbody⟩ := hlabel.exists_body
    rw [List.flatten_cons, closings_append_closing, hbody, ih hlabels, List.length_cons]
    omega

/-! ### Chunks -/

/-- The text that a printer sees of a chunk. -/
def chunkText (chunk : List UInt8) : String := String.ofList (Utf8.lossy chunk)

/-- The chunk starts with the end of a label, or starts a label and holds an end. -/
def Ends (chunk : List UInt8) : Prop := closing <+: chunk ∨ opening <+: chunk ∧ closing <:+: chunk

instance : DecidablePred Ends := fun _ => inferInstanceAs (Decidable (_ ∨ _))

theorem completes_chunkText_iff {chunk : List UInt8} :
    Completes (chunkText chunk) ↔ Ends chunk := by
  have hstart : "^XA".toList <+: Utf8.lossy chunk ↔ opening <+: chunk :=
    Utf8.prefix_lossy_iff (by simp [Utf8.Plain])
  have hend : "^XZ".toList <+: Utf8.lossy chunk ↔ closing <+: chunk :=
    Utf8.prefix_lossy_iff (by simp [Utf8.Plain])
  have hwithin : "^XZ".toList <:+: Utf8.lossy chunk ↔ closing <:+: chunk :=
    Utf8.infix_lossy_iff (by simp [Utf8.Plain])
  have htext : (chunkText chunk).toList = Utf8.lossy chunk := String.toList_ofList
  unfold Completes Ends
  rw [htext]
  exact or_congr hend (and_congr hstart hwithin)

theorem Ends.closings_pos {chunk : List UInt8} (h : Ends chunk) : 0 < closings chunk := by
  rcases h with hstart | ⟨-, hwithin⟩
  · exact closings_pos_iff.mpr hstart.isInfix
  · exact closings_pos_iff.mpr hwithin

/-- How many labels a printer counts. -/
def heard (chunks : List (List UInt8)) : Nat := chunks.countP (Ends ·)

variable {chunks earlier later : List (List UInt8)} {chunk : List UInt8}

theorem heard_append (earlier later : List (List UInt8)) :
    heard (earlier ++ later) = heard earlier + heard later := List.countP_append

theorem heard_singleton (chunk : List UInt8) : heard [chunk] = if Ends chunk then 1 else 0 := by
  simp [heard, List.countP_singleton]

theorem heard_le_closings (chunks : List (List UInt8)) :
    heard chunks ≤ closings chunks.flatten := by
  induction chunks with
  | nil => exact Nat.le_refl 0
  | cons chunk chunks ih =>
    have hchunk : heard [chunk] ≤ closings chunk := by
      rw [heard_singleton]
      split_ifs with hends
      · exact hends.closings_pos
      · exact Nat.zero_le _
    calc heard (chunk :: chunks) = heard [chunk] + heard chunks := heard_append [chunk] chunks
      _ ≤ closings chunk + closings chunks.flatten := Nat.add_le_add hchunk ih
      _ ≤ closings (chunk ++ chunks.flatten) := closings_add_le chunk chunks.flatten

/-- Every end is heard. -/
def AllHeard (chunks : List (List UInt8)) : Prop := heard chunks = closings chunks.flatten

/-- Where every end is heard, none is cut in two. -/
theorem AllHeard.closings_append (h : AllHeard (earlier ++ later)) :
    closings (earlier ++ later).flatten = closings earlier.flatten + closings later.flatten := by
  have hle := closings_add_le earlier.flatten later.flatten
  have hearlier := heard_le_closings earlier
  have hlater := heard_le_closings later
  rw [AllHeard, heard_append] at h
  rw [List.flatten_append] at h ⊢
  omega

theorem AllHeard.parts (h : AllHeard (earlier ++ later)) : AllHeard earlier ∧ AllHeard later := by
  have hsum := h.closings_append
  have hearlier := heard_le_closings earlier
  have hlater := heard_le_closings later
  rw [AllHeard, heard_append] at h
  rw [AllHeard, AllHeard]
  omega

theorem AllHeard.closings_eq (h : AllHeard (earlier ++ chunk :: later)) :
    closings chunk = if Ends chunk then 1 else 0 := by
  have hback : AllHeard ([chunk] ++ later) := h.parts.2
  rw [← heard_singleton, hback.parts.1, List.flatten_singleton]

/-- The chunk that holds a given byte of a stream. -/
theorem exists_chunk_of_flatten_eq {u w : List UInt8} {b : UInt8}
    (h : chunks.flatten = u ++ b :: w) :
    ∃ earlier x y later, chunks = earlier ++ (x ++ b :: y) :: later ∧ u = earlier.flatten ++ x ∧
      w = y ++ later.flatten := by
  induction chunks generalizing u with
  | nil => simp at h
  | cons chunk chunks ih =>
    have hlater : ∀ u', u = chunk ++ u' → chunks.flatten = u' ++ b :: w →
        ∃ earlier x y later, chunk :: chunks = earlier ++ (x ++ b :: y) :: later ∧
          u = earlier.flatten ++ x ∧ w = y ++ later.flatten := by
      rintro u' rfl hnext
      obtain ⟨earlier, x, y, later, rfl, rfl, hw⟩ := ih hnext
      exact ⟨chunk :: earlier, x, y, later, rfl, by simp, hw⟩
    rw [List.flatten_cons] at h
    rcases List.append_eq_append_iff.mp h with ⟨u', hu, hnext⟩ | ⟨c, rfl, hw⟩
    · exact hlater u' hu hnext
    · cases c with
      | nil => exact hlater [] (by simp) hw.symm
      | cons d c =>
        obtain ⟨rfl, rfl⟩ := List.cons_eq_cons.mp hw
        exact ⟨[], u, c, chunks, rfl, rfl, rfl⟩

/-- Where every end is heard, the chunk in which an end begins holds it as a whole, and no other. -/
theorem AllHeard.exists_chunk (h : AllHeard chunks) {u v : List UInt8}
    (hstream : chunks.flatten = u ++ closing ++ v) :
    ∃ earlier x y later, chunks = earlier ++ (x ++ closing ++ y) :: later ∧
      u = earlier.flatten ++ x ∧ v = y ++ later.flatten := by
  have htotal := closings_append_closing u v
  rw [← hstream] at htotal
  rw [List.append_assoc, closing_append] at hstream
  obtain ⟨earlier, x, y, later, rfl, rfl, hrest⟩ := exists_chunk_of_flatten_eq hstream
  -- If the chunk broke off inside the end, the cut behind it would lose that end.
  have hcut : closings (earlier ++ (x ++ 94 :: y) :: later).flatten =
      closings (earlier.flatten ++ x ++ 94 :: y) + closings later.flatten := by
    have hsplit : earlier ++ (x ++ 94 :: y) :: later = (earlier ++ [x ++ 94 :: y]) ++ later := by
      simp
    rw [hsplit] at h ⊢
    rw [h.closings_append]
    simp
  match y, hrest with
  | [], hrest =>
    have hlater : closings later.flatten = closings v := by
      rw [← List.nil_append later.flatten, ← hrest, closings_cons_of_ne (by decide),
        closings_cons_of_ne (by decide)]
    have hcaret : closings [94] = 0 := by decide
    rw [closings_append_caret] at hcut
    omega
  | [y₁], hrest =>
    obtain ⟨rfl, hv⟩ := List.cons_eq_cons.mp hrest
    have hlater : closings later.flatten = closings v := by
      rw [← List.nil_append later.flatten, ← List.append_eq, ← hv, closings_cons_of_ne (by decide)]
    have hcaret : closings [94, 88] = 0 := by decide
    rw [closings_append_caret] at hcut
    omega
  | y₁ :: y₂ :: y, hrest =>
    obtain ⟨rfl, hrest'⟩ := List.cons_eq_cons.mp hrest
    obtain ⟨rfl, hv⟩ := List.cons_eq_cons.mp hrest'
    exact ⟨earlier, x, y, later, by rw [List.append_assoc, closing_append], rfl, hv⟩

/-! ### Labels in chunks -/

/-- Behind the bytes in front of it, the label is the start of a chunk, or its end is; and the chunk
holds no other end. -/
def Arrives (chunks : List (List UInt8)) (front label : List UInt8) : Prop :=
  ∃ earlier chunk later, chunks = earlier ++ chunk :: later ∧ closings chunk = 1 ∧
    (earlier.flatten = front ∧ label <+: chunk ∨
      earlier.flatten ++ closing = front ++ label ∧ closing <+: chunk)

/-- What stands in front of an end is empty, or is as long as a mark that the bytes start with. -/
theorem eq_nil_or_prefix {m k : UInt8} (hm : m ≠ 94) (hk : k ≠ 94) {x y : List UInt8}
    (h : [94, m, k] <+: x ++ closing ++ y) : x = [] ∨ [94, m, k] <+: x := by
  by_cases hx : x = []
  · exact .inl hx
  · rw [List.append_assoc, closing_append] at h
    exact .inr ((prefix_append_caret hm hk hx _).mp h)

variable {before : List (List UInt8)} {label : List UInt8}

theorem closing_suffix_flatten (hbefore : ∀ l ∈ before, Whole l) (hne : before ≠ []) :
    ∃ front, before.flatten = front ++ closing := by
  rcases List.eq_nil_or_concat before with rfl | ⟨init, last, rfl⟩
  · contradiction
  · obtain ⟨body, rfl, -⟩ := (hbefore last (by simp)).exists_body
    exact ⟨init.flatten ++ body, by simp⟩

/-- Bytes that start with a caret and contain no end are not the last bytes of whole labels. -/
theorem eq_nil_of_flatten_eq_append (hbefore : ∀ l ∈ before, Whole l) {front back : List UInt8}
    (h : before.flatten = front ++ back) (hcaret : ∀ b ∈ back.head?, b = 94)
    (hback : closings back = 0) : back = [] := by
  by_cases hne : before = []
  · subst hne
    exact (List.append_eq_nil_iff.mp h.symm).2
  obtain ⟨w, hw⟩ := closing_suffix_flatten hbefore hne
  rw [h] at hw
  rcases List.append_eq_append_iff.mp hw with ⟨t, -, rfl⟩ | ⟨t, -, hclosing⟩
  · exact absurd (List.suffix_append t closing).isInfix (closings_eq_zero_iff.mp hback)
  · rw [closing_eq] at hclosing
    match t, hclosing with
    | [], hclosing =>
      obtain rfl : [94, 88, 90] = back := hclosing
      exact absurd hback (by decide)
    | [_], hclosing =>
      obtain rfl := (List.cons_eq_cons.mp hclosing).2
      exact absurd (hcaret 88 rfl) (by decide)
    | [_, _], hclosing =>
      obtain rfl := (List.cons_eq_cons.mp (List.cons_eq_cons.mp hclosing).2).2
      exact absurd (hcaret 90 rfl) (by decide)
    | _ :: _ :: _ :: t, hclosing =>
      simp only [List.cons_append, List.cons.injEq, List.nil_eq, List.append_eq_nil_iff] at hclosing
      exact hclosing.2.2.2.2

theorem AllHeard.arrives (h : AllHeard chunks) (hbefore : ∀ l ∈ before, Whole l)
    (hlabel : Whole label) {rest : List UInt8}
    (hstream : chunks.flatten = before.flatten ++ label ++ rest) :
    Arrives chunks before.flatten label := by
  obtain ⟨body, rfl, -⟩ := hlabel.exists_body
  have hend : chunks.flatten = before.flatten ++ body ++ closing ++ rest := by
    rw [hstream, List.append_assoc before.flatten body]
  obtain ⟨earlier, x, y, later, rfl, hfront, -⟩ := h.exists_chunk hend
  have hone : closings (x ++ closing ++ y) = closings x + 1 + closings y :=
    closings_append_closing x y
  obtain ⟨hends, hx, hy⟩ : Ends (x ++ closing ++ y) ∧ closings x = 0 ∧ closings y = 0 := by
    have hchunk := h.closings_eq
    split_ifs at hchunk with hends
    · exact ⟨hends, by omega, by omega⟩
    · omega
  refine ⟨earlier, x ++ closing ++ y, later, rfl, by omega, ?_⟩
  rcases hends with hclosing | ⟨hopening, -⟩
  · right
    rw [closing_eq] at hclosing
    rcases eq_nil_or_prefix (by decide) (by decide) hclosing with rfl | hinitial
    · rw [← List.append_assoc, hfront, List.append_nil]
      exact ⟨rfl, List.prefix_append closing y⟩
    · rw [← closing_eq] at hinitial
      exact absurd hinitial.isInfix (closings_eq_zero_iff.mp hx)
  · left
    have hinitial : opening <+: x := by
      rw [opening_eq] at hopening ⊢
      rcases eq_nil_or_prefix (by decide) (by decide) hopening with rfl | hinitial
      · rw [List.nil_append, closing_append] at hopening
        simp at hopening
      · exact hinitial
    rcases List.append_eq_append_iff.mp hfront with ⟨a, hearlier, rfl⟩ | ⟨a, hearlier, rfl⟩
    · -- The chunk starts inside the label, so at its start.
      rw [List.append_assoc] at hlabel
      obtain rfl := hlabel.eq_nil_of_opening (hinitial.trans (List.prefix_append x closing))
      rw [hearlier, List.append_nil]
      exact ⟨rfl, List.prefix_append _ y⟩
    · -- The chunk starts in front of the label, and would hold the end of the label before it.
      have ha : closings a = 0 := by
        have := closings_add_le a body
        omega
      have hcaret : ∀ b ∈ a.head?, b = 94 := by
        cases a with
        | nil => simp
        | cons b a =>
          rw [opening_eq] at hinitial
          simpa using (List.cons_prefix_cons.mp hinitial).1.symm
      obtain rfl := eq_nil_of_flatten_eq_append hbefore hearlier hcaret ha
      rw [hearlier, List.append_nil]
      exact ⟨rfl, List.prefix_append _ y⟩

theorem Whole.ends_chunk (hlabel : Whole label) (h : label <+: chunk ∨ closing <+: chunk) :
    Ends chunk := by
  rcases h with hwhole | hend
  · exact .inr ⟨hlabel.starts.trans hwhole, hlabel.ends.isInfix.trans hwhole.isInfix⟩
  · exact .inl hend

theorem Ends.exists_cons (h : Ends chunk) : ∃ rest, chunk = 94 :: rest := by
  rcases h with ⟨rest, rfl⟩ | ⟨⟨rest, rfl⟩, -⟩
  · exact ⟨_, closing_append rest⟩
  · exact ⟨88 :: 65 :: rest, by rw [opening_eq]; rfl⟩

/-- Chunks in which all of the first labels arrive have a front part with just the ends of these,
all of them heard. -/
theorem exists_allHeard (hlabels : ∀ l ∈ labels, Whole l)
    (h : ∀ before label after, labels = before ++ label :: after →
      Arrives chunks before.flatten label) (before after : List (List UInt8))
    (hsplit : labels = before ++ after) :
    ∃ earlier later, chunks = earlier ++ later ∧ AllHeard earlier ∧
      closings earlier.flatten = before.length := by
  induction before using List.reverseRecOn generalizing after with
  | nil => exact ⟨[], chunks, rfl, rfl, rfl⟩
  | append_singleton before label ih =>
    rw [List.append_assoc, List.singleton_append] at hsplit
    have hwhole : ∀ l ∈ before ++ label :: after, Whole l := hsplit ▸ hlabels
    have hlabel : Whole label := hwhole label (by simp)
    have hbefore : closings before.flatten = before.length :=
      closings_flatten fun l hl => hwhole l (List.mem_append_left _ hl)
    obtain ⟨front, back, hchunks, hheard, hcount⟩ := ih (label :: after) hsplit
    obtain ⟨earlier, chunk, later, hchunks', hone, harrives⟩ := h before label after hsplit
    have hends : Ends chunk := hlabel.ends_chunk (harrives.imp And.right And.right)
    have hearlier : closings earlier.flatten = before.length := by
      rcases harrives with ⟨heq, -⟩ | ⟨heq, -⟩
      · rw [heq, hbefore]
      · have hfirst : closings (before ++ [label]).flatten = before.length + 1 := by
          have hfront : ∀ l ∈ before ++ [label], Whole l := fun l hl =>
            hwhole l (List.append_cons before label after ▸ List.mem_append_left after hl)
          rw [closings_flatten hfront, List.length_append, List.length_singleton]
        rw [List.flatten_append, List.flatten_singleton, ← heq, ← List.append_nil (_ ++ closing),
          closings_append_closing, closings] at hfirst
        omega
    have hall : AllHeard earlier := by
      have hsame := hchunks.symm.trans hchunks'
      rcases List.append_eq_append_iff.mp hsame with ⟨t, rfl, -⟩ | ⟨t, rfl, -⟩
      · have hle := heard_le_closings (front ++ t)
        rw [heard_append, hheard, hcount] at hle
        rw [AllHeard, heard_append, hheard, hcount, hearlier]
        omega
      · exact hheard.parts.1
    refine ⟨earlier ++ [chunk], later, by rw [hchunks']; simp, ?_⟩
    have hcount' : closings (earlier ++ [chunk]).flatten = before.length + 1 := by
      obtain ⟨rest, rfl⟩ := hends.exists_cons
      rw [List.flatten_append, List.flatten_singleton, closings_append_caret, hearlier, hone]
    constructor
    · rw [AllHeard, heard_append, hall, hearlier, heard_singleton, if_pos hends, hcount']
    · rw [hcount', List.length_append, List.length_singleton]

/-- All labels are counted exactly if each of them arrives. -/
theorem allHeard_iff (hlabels : ∀ l ∈ labels, Whole l) (hstream : chunks.flatten = labels.flatten) :
    AllHeard chunks ↔ ∀ before label after, labels = before ++ label :: after →
      Arrives chunks before.flatten label := by
  constructor
  · rintro h before label after rfl
    have hbehind : chunks.flatten = before.flatten ++ label ++ after.flatten := by
      rw [hstream]
      simp
    exact h.arrives (fun l hl => hlabels l (by simp [hl])) (hlabels label (by simp)) hbehind
  · intro h
    obtain ⟨earlier, later, rfl, hheard, hcount⟩ :=
      exists_allHeard hlabels h labels [] (List.append_nil labels).symm
    have htotal := closings_flatten hlabels
    have hle := heard_le_closings (earlier ++ later)
    rw [← hstream] at htotal
    rw [AllHeard, heard_append] at *
    omega

/-- Where every end is heard, the last chunk is one that ends a label. -/
theorem AllHeard.ends_last (h : AllHeard (chunks ++ [chunk])) (hlabels : ∀ l ∈ labels, Whole l)
    (hstream : (chunks ++ [chunk]).flatten = labels.flatten) (hne : chunk ≠ []) : Ends chunk := by
  have hlabelsne : labels ≠ [] := by
    rintro rfl
    simp [hne] at hstream
  obtain ⟨front, hfront⟩ := closing_suffix_flatten hlabels hlabelsne
  have hend : (chunks ++ [chunk]).flatten = front ++ closing ++ [] := by
    rw [hstream, hfront, List.append_nil]
  obtain ⟨earlier, x, y, later, hchunks, -, hnil⟩ := h.exists_chunk hend
  obtain ⟨-, hlater⟩ := List.append_eq_nil_iff.mp hnil.symm
  rcases List.eq_nil_or_concat later with rfl | ⟨init, last, rfl⟩
  · obtain ⟨-, hlast⟩ := List.append_inj' hchunks rfl
    have hone := closings_append_closing x y
    have hchunk := h.closings_eq
    rw [List.singleton_inj.mp hlast] at hchunk ⊢
    by_contra hends
    rw [if_neg hends] at hchunk
    omega
  · rw [List.concat_eq_append] at hchunks hlater
    have hlast : [chunk] = [last] := by
      rw [← List.cons_append, ← List.append_assoc] at hchunks
      exact (List.append_inj' hchunks rfl).2
    rw [List.flatten_append, List.flatten_singleton, List.append_eq_nil_iff] at hlater
    exact absurd (List.singleton_inj.mp hlast ▸ hlater.2) hne

/-! ### The emulated printer -/

namespace Emulator

theorem receiveAll_fst (e : Emulator) (chunks : List (List UInt8)) :
    (e.receiveAll chunks).1 = e.run (chunks.map fun chunk => .send (chunkText chunk)) := by
  induction chunks generalizing e with
  | nil => rfl
  | cons chunk chunks ih => exact ih (e.receive chunk).1

theorem sinceReset_map_send (chunks : List String) :
    sinceReset (chunks.map .send) = chunks := by
  induction chunks using List.reverseRecOn with
  | nil => rfl
  | append_singleton chunks chunk ih =>
    rw [List.map_append, List.map_singleton, sinceReset_send, ih]

theorem completed_map_chunkText (chunks : List (List UInt8)) :
    completed (chunks.map chunkText) = heard chunks := by
  rw [completed, heard, List.countP_map]
  simp only [Function.comp_def, completes_chunkText_iff]

/-- The printer after some chunks, as their texts tell it. -/
theorem follows_receiveAll (name model : String) (chunks : List (List UInt8)) :
    Follows name model (chunks.map fun chunk => .send (chunkText chunk))
      (({ name, model } : Emulator).receiveAll chunks).1 := by
  rw [receiveAll_fst]
  exact follows_run name model _

theorem state_receiveAll_concat (e : Emulator) (chunks : List (List UInt8)) {chunk : List UInt8}
    (h : Ends chunk) : (e.receiveAll (chunks ++ [chunk])).1.state = .ready := by
  have hcompletes : Completes (chunkText chunk) := completes_chunkText_iff.mpr h
  have hlast : (e.receiveAll (chunks ++ [chunk])).1 =
      ((e.receiveAll chunks).1.respond (chunkText chunk)).1 := by
    simp only [receiveAll_fst, List.map_append, run, List.foldl_append]
    rfl
  rw [hlast, state_respond, if_neg fun hopens => hopens.not_completes hcompletes, if_pos hcompletes]

/-- Labels on a line that hands them over in chunks. A fresh printer counts the chunks that start
with the end of a label, or start a label and hold an end. It counts all labels exactly if each of
them is the start of a chunk, or its end is, and that chunk holds no other end; then it is ready. So
a label that is longer than a chunk is counted only if its end starts a chunk, and of several labels
that end in one chunk at most one is counted. -/
theorem receiveAll_labels (name model : String) {labels chunks : List (List UInt8)}
    (hlabels : ∀ label ∈ labels, Whole label)
    (hchunks : ∀ chunk ∈ chunks, 1 ≤ chunk.length ∧ chunk.length ≤ chunkSize)
    (hstream : chunks.flatten = labels.flatten) :
    let e := (({ name, model } : Emulator).receiveAll chunks).1
    e.jobs = UInt64.ofNat (heard chunks) ∧ heard chunks ≤ labels.length ∧
      (e.state = .printing ↔ Unfinished (chunks.map chunkText)) ∧
      (heard chunks = labels.length ↔ ∀ before label after, labels = before ++ label :: after →
        Arrives chunks before.flatten label) ∧
      (heard chunks = labels.length → e.state = .ready) ∧
      (heard chunks = labels.length → ∀ before label after, labels = before ++ label :: after →
        chunkSize < label.length → ∃ earlier chunk later, chunks = earlier ++ chunk :: later ∧
          earlier.flatten ++ closing = before.flatten ++ label ∧ closing <+: chunk) ∧
      ∀ chunk ∈ chunks, 1 < closings chunk → heard chunks < labels.length := by
  have htotal : closings chunks.flatten = labels.length := hstream ▸ closings_flatten hlabels
  have hle : heard chunks ≤ labels.length := htotal ▸ heard_le_closings chunks
  have hall : heard chunks = labels.length ↔ AllHeard chunks := by rw [AllHeard, htotal]
  have hfollows := follows_receiveAll name model chunks
  have hsince : sinceReset (chunks.map fun chunk => .send (chunkText chunk)) =
      chunks.map chunkText := by
    rw [← sinceReset_map_send (chunks.map chunkText), List.map_map]
    rfl
  refine ⟨?_, hle, ?_, ?_, ?_, ?_, ?_⟩
  · rw [hfollows.jobs_eq, hsince, completed_map_chunkText]
  · rw [hfollows.printing_iff, hsince]
  · rw [hall, allHeard_iff hlabels hstream]
  · intro heq
    rcases List.eq_nil_or_concat chunks with rfl | ⟨init, last, rfl⟩
    · rfl
    · rw [List.concat_eq_append] at *
      have hlast : last ≠ [] := List.ne_nil_of_length_pos (hchunks last (by simp)).1
      exact state_receiveAll_concat _ init ((hall.mp heq).ends_last hlabels hstream hlast)
  · intro heq before label after hsplit hlong
    obtain ⟨earlier, chunk, later, hchunk, -, ⟨-, hwhole⟩ | hend⟩ :=
      (allHeard_iff hlabels hstream).mp (hall.mp heq) before label after hsplit
    · have hshort := (hchunks chunk (by simp [hchunk])).2
      have hlength := hwhole.length_le
      omega
    · exact ⟨earlier, chunk, later, hchunk, hend⟩
  · intro chunk hmem hmany
    apply Nat.lt_of_le_of_ne hle
    intro heq
    obtain ⟨earlier, later, rfl⟩ := List.append_of_mem hmem
    have hone := (hall.mp heq).closings_eq
    split_ifs at hone <;> omega

/-- The first label is cut in front of its end, and a part of the second arrives with that end. -/
theorem receiveAll_labels_cut :
    let labels := [Utf8.encode "^XA^FDa^FS^XZ".toList, Utf8.encode "^XA^FDñ^FS^XZ".toList]
    let chunks := [Utf8.encode "^XA^FDa^FS".toList, Utf8.encode "^XZ^XA^FDñ^FS".toList,
      Utf8.encode "^XZ".toList]
    let e := (({ name := "ZEBRA-001", model := "ZT230" } : Emulator).receiveAll chunks).1
    (∀ label ∈ labels, Whole label) ∧
      (∀ chunk ∈ chunks, 1 ≤ chunk.length ∧ chunk.length ≤ chunkSize) ∧
      chunks.flatten = labels.flatten ∧ e.jobs = 2 ∧ e.state = .ready := by
  intro labels chunks e
  have hlabels : ∀ label ∈ labels, Whole label := by decide
  have hchunks : ∀ chunk ∈ chunks, 1 ≤ chunk.length ∧ chunk.length ≤ chunkSize := by decide
  have hstream : chunks.flatten = labels.flatten := by decide
  have hheard : heard chunks = 2 := by decide
  obtain ⟨hjobs, -, -, -, hready, -⟩ :=
    receiveAll_labels "ZEBRA-001" "ZT230" hlabels hchunks hstream
  exact ⟨hlabels, hchunks, hstream, hjobs.trans (by rw [hheard]; rfl), hready hheard⟩

/-- A label that is cut somewhere else is not counted, and of two labels in one chunk one is. -/
theorem not_counts_every_label :
    let label := Utf8.encode "^XA^FDa^FS^XZ".toList
    let halves := [Utf8.encode "^XA^FDa".toList, Utf8.encode "^FS^XZ".toList]
    let cut := (({ name := "ZEBRA-001", model := "ZT230" } : Emulator).receiveAll halves).1
    let joined := (({ name := "ZEBRA-001", model := "ZT230" } : Emulator).receiveAll
      [label ++ label]).1
    Whole label ∧ (∀ chunk ∈ halves, 1 ≤ chunk.length ∧ chunk.length ≤ chunkSize) ∧
      halves.flatten = label ∧ ¬ (cut.state = .ready ∧ cut.jobs = 1) ∧
      (label ++ label).length ≤ chunkSize ∧ ¬ (joined.state = .ready ∧ joined.jobs = 2) := by
  decide

end Emulator

end LabelFleet.Printer
