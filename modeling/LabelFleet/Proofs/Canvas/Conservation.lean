import LabelFleet.Proofs.Canvas.Bounds
import LabelFleet.Proofs.Canvas.Decoding

/-! A picture shows every primitive once and counts what it shows. The elements and the counts come
from two passes over the primitives, and they agree on every list of them. -/
namespace LabelFleet

open Markup (Kind Primitive)

namespace Canvas

/-! ### Counts -/

/-- The counts stand in the order of kinds, each kind at most once. -/
abbrev InOrder (counts : List (Kind × Nat)) : Prop :=
  counts.Pairwise fun a b => a.1.rank < b.1.rank

/-- How many of a kind have been counted. -/
def counted (counts : List (Kind × Nat)) (k : Kind) : Nat := (counts.lookup k).getD 0

/-- Only what has been counted is listed. -/
abbrev Positive (counts : List (Kind × Nat)) : Prop := ∀ c ∈ counts, 0 < c.2

section

variable {k j : Kind} {n : Nat} {counts : List (Kind × Nat)}

theorem counted_cons : counted ((j, n) :: counts) k = if k = j then n else counted counts k := by
  by_cases h : k = j
  · rw [if_pos h, h, counted, List.lookup_cons_self, Option.getD_some]
  · rw [if_neg h, counted, List.lookup_cons, beq_eq_false_iff_ne.mpr h, counted]

theorem counted_of_forall_rank (h : ∀ c ∈ counts, k.rank < c.1.rank) : counted counts k = 0 := by
  induction counts with
  | nil => rfl
  | cons c counts ih =>
    have hne : k ≠ c.1 := by
      rintro rfl
      exact Nat.lt_irrefl _ (h c List.mem_cons_self)
    rw [counted_cons, if_neg hne]
    exact ih fun d hd => h d (.tail c hd)

/-- A kind is listed with the number that has been counted of it. -/
theorem mem_iff_counted (horder : InOrder counts) (hpositive : Positive counts) :
    (k, n) ∈ counts ↔ 0 < n ∧ counted counts k = n := by
  induction counts with
  | nil =>
    simp only [List.not_mem_nil, counted, List.lookup_nil, Option.getD_none, false_iff]
    omega
  | cons c counts ih =>
    obtain ⟨j, m⟩ := c
    obtain ⟨hfirst, hrest⟩ := List.pairwise_cons.mp horder
    have hm : 0 < m := hpositive (j, m) List.mem_cons_self
    rw [List.mem_cons, Prod.mk.injEq, counted_cons, ih hrest fun d hd => hpositive d (.tail _ hd)]
    by_cases h : k = j
    · have hzero : counted counts k = 0 := h ▸ counted_of_forall_rank hfirst
      rw [if_pos h, hzero]
      simp only [h, true_and]
      omega
    · simp [h]

theorem mem_countOne {c : Kind × Nat} (h : c ∈ countOne k counts) :
    c.1 = k ∨ ∃ d ∈ counts, c.1 = d.1 := by
  induction counts with
  | nil => exact .inl (congrArg Prod.fst (List.mem_singleton.mp h))
  | cons d counts ih =>
    unfold countOne at h
    split_ifs at h with hlt heq
    · rcases List.mem_cons.mp h with rfl | h
      · exact .inl rfl
      · exact .inr ⟨c, h, rfl⟩
    · rcases List.mem_cons.mp h with rfl | h
      · exact .inl heq.symm
      · exact .inr ⟨c, .tail d h, rfl⟩
    · rcases List.mem_cons.mp h with rfl | h
      · exact .inr ⟨d, List.mem_cons_self, rfl⟩
      · refine (ih h).imp_right ?_
        rintro ⟨e, he, hc⟩
        exact ⟨e, .tail d he, hc⟩

theorem inOrder_countOne (h : InOrder counts) (k : Kind) : InOrder (countOne k counts) := by
  induction counts with
  | nil => exact List.pairwise_singleton _ _
  | cons c counts ih =>
    obtain ⟨hfirst, hrest⟩ := List.pairwise_cons.mp h
    unfold countOne
    split_ifs with hlt heq
    · refine List.pairwise_cons.mpr ⟨?_, h⟩
      intro d hd
      rcases List.mem_cons.mp hd with rfl | hd
      · exact hlt
      · exact hlt.trans (hfirst d hd)
    · exact List.pairwise_cons.mpr ⟨hfirst, hrest⟩
    · refine List.pairwise_cons.mpr ⟨?_, ih hrest⟩
      intro d hd
      rcases mem_countOne hd with hk | ⟨e, he, hrank⟩
      · have hne : c.1.rank ≠ k.rank := fun hsame => heq (Kind.rank_injective hsame).symm
        rw [hk]
        dsimp only at hne ⊢
        omega
      · exact hrank ▸ hfirst e he

theorem positive_countOne (h : Positive counts) (k : Kind) : Positive (countOne k counts) := by
  induction counts with
  | nil => simp [countOne]
  | cons c counts ih =>
    have hrest := ih fun d hd => h d (.tail c hd)
    unfold countOne
    split_ifs
    · exact List.forall_mem_cons.mpr ⟨Nat.one_pos, h⟩
    · exact List.forall_mem_cons.mpr ⟨Nat.succ_pos _, (List.forall_mem_cons.mp h).2⟩
    · exact List.forall_mem_cons.mpr ⟨(List.forall_mem_cons.mp h).1, hrest⟩

/-- One more of a kind changes the count of no other. -/
theorem counted_countOne (h : InOrder counts) :
    counted (countOne k counts) j = counted counts j + if j = k then 1 else 0 := by
  induction counts with
  | nil =>
    rw [countOne, counted_cons]
    split_ifs <;> rfl
  | cons c counts ih =>
    obtain ⟨i, n⟩ := c
    obtain ⟨hfirst, hrest⟩ := List.pairwise_cons.mp h
    rw [countOne]
    by_cases hlt : k.rank < i.rank
    · have hnew : ∀ d ∈ (i, n) :: counts, k.rank < d.1.rank := by
        intro d hd
        rcases List.mem_cons.mp hd with rfl | hd
        · exact hlt
        · exact hlt.trans (hfirst d hd)
      rw [if_pos hlt, counted_cons]
      split_ifs with hjk
      · rw [hjk, counted_of_forall_rank hnew]
      · rfl
    · rw [if_neg hlt]
      by_cases hki : k = i
      · rw [if_pos hki, counted_cons, counted_cons, hki]
        split_ifs <;> rfl
      · rw [if_neg hki, counted_cons, counted_cons, ih hrest]
        by_cases hji : j = i
        · rw [if_pos hji, if_pos hji, if_neg fun hjk => hki (hjk.symm.trans hji), Nat.add_zero]
        · rw [if_neg hji, if_neg hji]

theorem sum_countOne (k : Kind) (counts : List (Kind × Nat)) :
    ((countOne k counts).map Prod.snd).sum = (counts.map Prod.snd).sum + 1 := by
  induction counts with
  | nil => rfl
  | cons c counts ih =>
    unfold countOne
    split_ifs
    · simp [Nat.add_comm]
    · simp only [List.map_cons, List.sum_cons]
      omega
    · simp only [List.map_cons, List.sum_cons, ih]
      omega

/-- Lists that count alike are equal. -/
theorem eq_of_counted_eq {counts' : List (Kind × Nat)} (horder : InOrder counts)
    (hpositive : Positive counts) (horder' : InOrder counts') (hpositive' : Positive counts')
    (h : ∀ k, counted counts k = counted counts' k) : counts = counts' := by
  have hnodup {cs : List (Kind × Nat)} (hcs : InOrder cs) : cs.Nodup :=
    hcs.imp fun hlt => ne_of_apply_ne (fun c => c.1.rank) (Nat.ne_of_lt hlt)
  have hperm : counts.Perm counts' := by
    rw [List.perm_ext_iff_of_nodup (hnodup horder) (hnodup horder')]
    rintro ⟨k, n⟩
    rw [mem_iff_counted horder hpositive, mem_iff_counted horder' hpositive', h k]
  refine hperm.eq_of_pairwise ?_ horder horder'
  intro a b _ _ hab hba
  exact absurd (hab.trans hba) (Nat.lt_irrefl _)

end

/-! ### Counting a list -/

/-- What counting keeps true: the counts are in order and tell how many of each kind have passed. -/
structure Counts (counts : List (Kind × Nat)) (ps : List Primitive) : Prop where
  inOrder : InOrder counts
  positive : Positive counts
  counted_eq : ∀ k, counted counts k = ps.countP fun p => p.kind == k
  sum_eq : (counts.map Prod.snd).sum = ps.length

theorem Counts.countOne {counts : List (Kind × Nat)} {ps : List Primitive} (h : Counts counts ps)
    (p : Primitive) : Counts (countOne p.kind counts) (ps ++ [p]) where
  inOrder := inOrder_countOne h.inOrder p.kind
  positive := positive_countOne h.positive p.kind
  counted_eq := by
    intro k
    rw [counted_countOne h.inOrder, h.counted_eq, List.countP_append, List.countP_singleton]
    simp only [beq_iff_eq, @eq_comm _ k]
  sum_eq := by rw [sum_countOne, h.sum_eq, List.length_append, List.length_singleton]

theorem counts_countKinds (ps : List Primitive) : Counts (countKinds ps) ps := by
  -- The counts so far tell of the primitives in front; the induction takes the others one by one.
  have hrun (front : List Primitive) (counts : List (Kind × Nat)) (h : Counts counts front) :
      Counts (ps.foldl (fun counts p => Canvas.countOne p.kind counts) counts) (front ++ ps) := by
    induction ps generalizing front counts with
    | nil => rwa [List.append_nil]
    | cons p ps ih =>
      rw [List.foldl_cons, List.append_cons]
      exact ih (front ++ [p]) _ (h.countOne p)
  exact hrun [] [] ⟨.nil, by simp, fun _ => rfl, rfl⟩

/-- The order of the primitives does not matter to the counts. -/
theorem countKinds_perm {ps qs : List Primitive} (h : qs.Perm ps) :
    countKinds qs = countKinds ps := by
  have hqs := counts_countKinds qs
  have hps := counts_countKinds ps
  refine eq_of_counted_eq hqs.inOrder hqs.positive hps.inOrder hps.positive ?_
  intro k
  rw [hqs.counted_eq, hps.counted_eq, h.countP_eq]

/-! ### Elements -/

/-- What a length in a drawing measures. -/
inductive Measure
  | fontSize
  | barHeight
  | side
  | width
  | height
  | thickness
deriving DecidableEq, Repr

/-- The lengths that a primitive of each kind has. -/
def measure? : Primitive → Measure → Option Float
  | .text _ _ fontSize _, .fontSize => some fontSize
  | .barcode _ _ height _, .barHeight => some height
  | .qrCode _ _ size, .side => some size
  | .box _ _ width _ _, .width => some width
  | .box _ _ _ height _, .height => some height
  | .box _ _ _ _ thickness, .thickness => some thickness
  | .line _ _ width _ _, .width => some width
  | .line _ _ _ height _, .height => some height
  | _, _ => none

def text? : Primitive → Option String
  | .text _ _ _ s => some s
  | _ => none

namespace Element

def kind : Element → Kind
  | text .. => .text
  | barcode .. => .barcode
  | qrPlaceholder .. => .qrCode
  | box .. => .box
  | line .. => .line

def origin : Element → Float × Float
  | text left top .. => (left, top)
  | barcode left top .. => (left, top)
  | qrPlaceholder left top _ => (left, top)
  | box left top .. => (left, top)
  | line left top .. => (left, top)

/-- The lengths that an element of each kind has. -/
def measure? : Element → Measure → Option Float
  | text _ _ fontSize _, .fontSize => some fontSize
  | barcode _ _ barHeight _, .barHeight => some barHeight
  | qrPlaceholder _ _ size, .side => some size
  | box _ _ width _ _, .width => some width
  | box _ _ _ height _, .height => some height
  | box _ _ _ _ borderWidth, .thickness => some borderWidth
  | line _ _ width _, .width => some width
  | line _ _ _ height, .height => some height
  | _, _ => none

def text? : Element → Option String
  | text _ _ _ s => some s
  | _ => none

def caption? : Element → Option String
  | barcode _ _ _ caption => some caption
  | _ => none

end Element

/-- An element shows a primitive: it is of the same kind, in the same place and of the same lengths
and text; a caption tells nothing of the primitive. -/
structure Shows (e : Element) (p : Primitive) : Prop where
  kind : e.kind = p.kind
  origin : e.origin = p.origin
  measure : ∀ m, e.measure? m = measure? p m
  text : e.text? = text? p
  caption : ∀ s ∈ e.caption?, s = "1234567890"

theorem shows_ofPrimitive (p : Primitive) : Shows (.ofPrimitive p) p where
  kind := by cases p <;> rfl
  origin := by cases p <;> rfl
  measure := by cases p <;> intro m <;> cases m <;> rfl
  text := by cases p <;> rfl
  caption := by cases p <;> simp [Element.ofPrimitive, Element.caption?, barcodeCaption]

theorem elements_render (ps : List Primitive) :
    (render ps).tree.elements = ps.map Element.ofPrimitive := by
  cases ps <;> rfl

/-! ### The whole picture -/

/-- The same picture with other elements. -/
def Tree.withElements (elements : List Element) : Tree → Tree
  | placeholder message => placeholder message
  | canvas width height _ => canvas width height elements

theorem boundingBox_perm {ps qs : List Primitive} (h : qs.Perm ps) :
    boundingBox qs = boundingBox ps := by
  apply Prod.ext
  · exact (isMaximum_fst_boundingBox qs).eq_of_mem_iff (isMaximum_fst_boundingBox ps)
      (by simp [h.mem_iff]) (place_fst_boundingBox_pos qs)
  · exact (isMaximum_snd_boundingBox qs).eq_of_mem_iff (isMaximum_snd_boundingBox ps)
      (by simp [h.mem_iff]) (place_snd_boundingBox_pos qs)

/-- In another order the primitives make up the same picture, but for the order of its elements. -/
theorem tree_render_perm {ps qs : List Primitive} (h : qs.Perm ps) :
    (render qs).tree = (render ps).tree.withElements (qs.map Element.ofPrimitive) := by
  have hempty : qs.isEmpty = ps.isEmpty := by
    rw [Bool.eq_iff_iff, List.isEmpty_iff, List.isEmpty_iff]
    exact ⟨fun hqs => List.perm_nil.mp (hqs ▸ h.symm), fun hps => List.perm_nil.mp (hps ▸ h)⟩
  change Tree.ofPrimitives qs = (Tree.ofPrimitives ps).withElements _
  rw [Tree.ofPrimitives, Tree.ofPrimitives, hempty, boundingBox_perm h]
  split_ifs <;> rfl

/-- A picture has one element for each primitive, in the same order, and each shows its own
primitive. The counts beside it tell how many there are of each kind that occurs, and of all kinds
together. Another order of the primitives reorders the elements and changes nothing else. -/
theorem render_conserves (ps : List Primitive) :
    ((∃ width height elements, (render ps).tree = .canvas width height elements) ↔ ps ≠ []) ∧
      (render ps).tree.elements.Forall₂ Shows ps ∧
      (∀ k n, (k, n) ∈ (render ps).info.types ↔ 0 < n ∧ (ps.countP fun p => p.kind == k) = n) ∧
      ((render ps).info.types.map Prod.fst).Nodup ∧
      (render ps).info.elementCount = ps.length ∧
      (render ps).info.elementCount = (render ps).tree.elements.length ∧
      (render ps).info.elementCount = ((render ps).info.types.map Prod.snd).sum ∧
      ∀ qs, qs.Perm ps → (render qs).info = (render ps).info ∧
        ∃ elements, elements.Perm (render ps).tree.elements ∧
          (render qs).tree = (render ps).tree.withElements elements := by
  have hcounts : Counts (render ps).info.types ps := counts_countKinds ps
  refine ⟨?_, ?_, ?_, ?_, rfl, ?_, hcounts.sum_eq.symm, ?_⟩
  · cases ps with
    | nil => simp [render, Tree.ofPrimitives]
    | cons p ps => exact ⟨fun _ => List.cons_ne_nil p ps, fun _ => ⟨_, _, _, rfl⟩⟩
  · rw [elements_render, List.forall₂_map_left_iff, List.forall₂_same]
    exact fun p _ => shows_ofPrimitive p
  · intro k n
    rw [mem_iff_counted hcounts.inOrder hcounts.positive, hcounts.counted_eq]
  · exact List.pairwise_map.mpr
      (hcounts.inOrder.imp fun hlt => ne_of_apply_ne Kind.rank (Nat.ne_of_lt hlt))
  · rw [elements_render, List.length_map]
    rfl
  · intro qs h
    constructor
    · change Info.mk qs.length (countKinds qs) = Info.mk ps.length (countKinds ps)
      rw [h.length_eq, countKinds_perm h]
    · exact ⟨qs.map Element.ofPrimitive, elements_render ps ▸ h.map _, tree_render_perm h⟩

end Canvas

end LabelFleet
