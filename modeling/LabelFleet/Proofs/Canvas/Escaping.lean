import LabelFleet.Proofs.Canvas.Entities
import Mathlib.Data.List.Infix

/-! Which texts are written by escaping. Brackets and quotes are gone from them and every `&` begins
an entity; conversely each text of this kind is what some text is escaped to. -/
namespace LabelFleet.Canvas

/-- The characters with a meaning in HTML. -/
def significant : List Char := ['&', '<', '>', '"', '\'']

def entities : List String := ["&amp;", "&lt;", "&gt;", "&quot;", "&#39;"]

/-- A text without live markup: of the significant characters it holds just `&`, and that only at
the beginning of an entity. -/
structure Inert (t : List Char) : Prop where
  plain : ∀ c ∈ significant, c ≠ '&' → c ∉ t
  ampersand : ∀ rest, '&' :: rest <:+ t → ∃ e ∈ entities, e.toList <+: '&' :: rest

theorem entity?_eq_none_iff {c : Char} : entity? c = none ↔ c ∉ significant := by
  unfold entity?
  split <;> simp_all [significant]

theorem mem_entities_iff {e : String} : e ∈ entities ↔ ∃ c, entity? c = some e := by
  constructor
  · intro h
    have hall : ∀ e ∈ entities, significant.any (entity? · == some e) = true := by decide
    obtain ⟨c, -, hc⟩ := List.any_eq_true.mp (hall e h)
    exact ⟨c, beq_iff_eq.mp hc⟩
  · rintro ⟨c, hc⟩
    unfold entity? at hc
    split at hc <;> cases hc <;> decide

theorem escapeChar_of_mem {c : Char} (h : c ∈ significant) :
    ∃ e ∈ entities, escapeChar c = e.toList := by
  cases he : entity? c with
  | none => exact absurd h (entity?_eq_none_iff.mp he)
  | some e => exact ⟨e, mem_entities_iff.mpr ⟨c, he⟩, by rw [escapeChar, he]⟩

theorem escapeChar_of_not_mem {c : Char} (h : c ∉ significant) : escapeChar c = [c] := by
  rw [escapeChar, entity?_eq_none_iff.mpr h]

theorem escapeChars_cons (c : Char) (s : List Char) :
    escapeChars (c :: s) = escapeChar c ++ escapeChars s := List.flatMap_cons

theorem escapeChars_append (s t : List Char) :
    escapeChars (s ++ t) = escapeChars s ++ escapeChars t := List.flatMap_append

/-- An entity is longer than the character that it stands for. -/
theorem length_escapeChar (c : Char) :
    1 + (if c ∈ significant then 1 else 0) ≤ (escapeChar c).length := by
  split
  · next h =>
    have hall : ∀ e ∈ entities, 2 ≤ e.toList.length := by decide
    obtain ⟨e, he, hescape⟩ := escapeChar_of_mem h
    rw [hescape]
    exact hall e he
  · next h =>
    rw [escapeChar_of_not_mem h]
    exact Nat.le_refl 1

theorem length_escapeChars (s : List Char) :
    s.length + s.countP (· ∈ significant) ≤ (escapeChars s).length := by
  induction s with
  | nil => exact Nat.le_refl 0
  | cons c s ih =>
    have hc := length_escapeChar c
    rw [escapeChars_cons, List.length_append, List.length_cons, List.countP_cons]
    simp only [decide_eq_true_eq]
    omega

@[simp] theorem toList_escape (s : String) : (escape s).toList = escapeChars s.toList :=
  String.toList_ofList

/-! ### Inert texts -/

/-- What is put in front of a text adds no place to those of a character that it does not hold. -/
theorem cons_suffix_append_iff {c : Char} {front : List Char} (h : c ∉ front)
    (rest s : List Char) : c :: rest <:+ front ++ s ↔ c :: rest <:+ s := by
  induction front with
  | nil => rfl
  | cons d front ih =>
    rw [List.mem_cons, not_or] at h
    rw [List.cons_append, List.suffix_cons_iff, ih h.2]
    apply or_iff_right
    intro heq
    exact h.1 (List.cons.inj heq).1

/-- Just the first character of an entity can begin an entity. -/
theorem exists_entity_eq_cons {e : String} (h : e ∈ entities) :
    ∃ body, e.toList = '&' :: body ∧ '&' ∉ body := by
  have hall : ∀ e ∈ entities, e.toList.head? = some '&' ∧ '&' ∉ e.toList.tail := by decide
  obtain ⟨hhead, htail⟩ := hall e h
  exact ⟨e.toList.tail, List.eq_cons_of_mem_head? hhead, htail⟩

/-- An `&` in an escaped text is the first character of what a character was escaped to. -/
theorem entity_prefix_of_suffix_escapeChars {rest s : List Char}
    (h : '&' :: rest <:+ escapeChars s) : ∃ e ∈ entities, e.toList <+: '&' :: rest := by
  induction s with
  | nil => simp [escapeChars] at h
  | cons c s ih =>
    rw [escapeChars_cons] at h
    by_cases hc : c ∈ significant
    · obtain ⟨e, he, hescape⟩ := escapeChar_of_mem hc
      obtain ⟨body, hbody, hnot⟩ := exists_entity_eq_cons he
      rw [hescape, hbody, List.cons_append, List.suffix_cons_iff,
        cons_suffix_append_iff hnot] at h
      rcases h with hstart | hlater
      · exact ⟨e, he, escapeChars s, by rw [hstart, hbody, List.cons_append]⟩
      · exact ih hlater
    · have hnot : '&' ∉ escapeChar c := by
        rw [escapeChar_of_not_mem hc, List.mem_singleton]
        rintro rfl
        exact hc (by decide)
      exact ih ((cons_suffix_append_iff hnot rest _).mp h)

theorem inert_escapeChars (s : List Char) : Inert (escapeChars s) where
  plain _ hc hne hmem :=
    entity?_eq_none_iff.mp ((entity?_of_mem_escapeChars hmem).resolve_left hne) hc
  ampersand _ := entity_prefix_of_suffix_escapeChars

theorem Inert.of_suffix {s t : List Char} (h : Inert t) (hs : s <:+ t) : Inert s where
  plain c hc hne hmem := h.plain c hc hne (hs.subset hmem)
  ampersand rest hrest := h.ampersand rest (hrest.trans hs)

/-- An inert text begins with what some character is escaped to. -/
theorem Inert.exists_escapeChar {c : Char} {t : List Char} (h : Inert (c :: t)) :
    ∃ d rest, escapeChar d ++ rest = c :: t := by
  by_cases hc : c = '&'
  · subst hc
    obtain ⟨e, he, rest, hrest⟩ := h.ampersand t List.suffix_rfl
    obtain ⟨d, hd⟩ := mem_entities_iff.mp he
    exact ⟨d, rest, by rw [escapeChar, hd, hrest]⟩
  · have hplain : c ∉ significant := fun hmem => h.plain c hmem hc List.mem_cons_self
    exact ⟨c, t, by rw [escapeChar_of_not_mem hplain, List.singleton_append]⟩

/-- Escaping writes the inert texts and no others. -/
theorem inert_iff {t : List Char} : Inert t ↔ ∃ s, escapeChars s = t := by
  constructor
  · intro h
    -- What follows the first escaped character is inert and shorter, if only by one character.
    induction hlength : t.length using Nat.strong_induction_on generalizing t with
    | _ n ih =>
      subst hlength
      cases t with
      | nil => exact ⟨[], rfl⟩
      | cons c t =>
        obtain ⟨d, rest, hd⟩ := h.exists_escapeChar
        have hlonger := length_escapeChar d
        obtain ⟨s, hs⟩ := ih rest.length (by rw [← hd, List.length_append]; omega)
          (h.of_suffix ⟨_, hd⟩) rfl
        exact ⟨d :: s, by rw [escapeChars_cons, hs, hd]⟩
  · rintro ⟨s, rfl⟩
    exact inert_escapeChars s

/-- Just the texts without significant characters are escaped to themselves. -/
theorem escapeChars_eq_self_iff {s : List Char} :
    escapeChars s = s ↔ ∀ c ∈ significant, c ∉ s := by
  constructor
  · intro h
    have hlonger := length_escapeChars s
    rw [h] at hlonger
    have hnone : s.countP (· ∈ significant) = 0 := by omega
    intro c hc hmem
    exact List.countP_eq_zero.mp hnone c hmem (decide_eq_true hc)
  · intro h
    have hsame : ∀ c ∈ s, escapeChar c = [c] := fun c hmem =>
      escapeChar_of_not_mem fun hc => h c hc hmem
    rw [escapeChars, List.flatMap_congr hsame, List.flatMap_singleton']

/-- Escaping can be undone and leaves no markup. Brackets and quotes are gone, every `&` begins an
entity, and the text is read back in one pass over the entities, so that no two texts are escaped to
the same one, even if they hold entities. Texts are escaped piece by piece, and exactly those
without significant characters stay as they are. -/
theorem escape_reversible (s : String) :
    Inert (escape s).toList ∧
      unescape (escape s).toList = s.toList ∧
      (∀ t, escape t = escape s → t = s) ∧
      (∀ t, escape (s ++ t) = escape s ++ escape t) ∧
      (escape s = s ↔ ∀ c ∈ significant, c ∉ s.toList) := by
  have hread : ∀ s, unescape (escape s).toList = s.toList := fun s => by
    rw [toList_escape, unescape_escapeChars]
  refine ⟨?_, hread s, ?_, ?_, ?_⟩
  · rw [toList_escape, inert_iff]
    exact ⟨s.toList, rfl⟩
  · intro t h
    apply String.toList_injective
    rw [← hread t, h, hread s]
  · intro t
    apply String.toList_injective
    simp only [toList_escape, String.toList_append, escapeChars_append]
  · rw [← escapeChars_eq_self_iff, ← toList_escape, String.toList_inj]

end LabelFleet.Canvas
