import LabelFleet.Canvas.Layout
import LabelFleet.Proofs.Number.Ordering

/-! How far a drawing reaches. The bounding box is the maximum of the smallest canvas and of the
edges of all primitives, so neither the order of the primitives nor how often one occurs matters to
it. -/
namespace LabelFleet.Canvas

open Binary64 (IsMaximum isNaN larger place)
open Markup (Primitive)

/-- Where a primitive is drawn. -/
def corner : Primitive → Float × Float
  | .text x y _ _ => (x, y)
  | .barcode x y _ _ => (x, y)
  | .qrCode x y _ => (x, y)
  | .box x y _ _ _ => (x, y)
  | .line x y _ _ _ => (x, y)

/-- The width that a primitive is given. Texts and barcodes are as wide as what they show. -/
def width? : Primitive → Option Float
  | .text .. => none
  | .barcode .. => none
  | .qrCode _ _ size => some size
  | .box _ _ width _ _ => some width
  | .line _ _ width _ _ => some width

/-- The height that a primitive is given; that of a text is the size of its font. -/
def height? : Primitive → Option Float
  | .text _ _ fontSize _ => some fontSize
  | .barcode _ _ height _ => some height
  | .qrCode _ _ size => some size
  | .box _ _ _ height _ => some height
  | .line _ _ _ height _ => some height

theorem positiveOr_eq (fallback : Float) (length : Option Float) :
    positiveOr fallback length = (length.filter (0 < ·)).getD fallback := by
  cases length with
  | none => rfl
  | some v =>
    rw [positiveOr, Option.filter_some]
    by_cases h : 0 < v <;> simp [h]

theorem right_eq : right = fun p => (corner p).1 + ((width? p).filter (0 < ·)).getD 100 := by
  funext p
  rw [right, positiveOr_eq]
  cases p <;> rfl

theorem bottom_eq : bottom = fun p => (corner p).2 + ((height? p).filter (0 < ·)).getD 30 := by
  funext p
  rw [bottom, positiveOr_eq]
  cases p <;> rfl

theorem boundingBox_eq (ps : List Primitive) : boundingBox ps =
    ((ps.map right).foldl larger minWidth, (ps.map bottom).foldl larger minHeight) := by
  rw [boundingBox]
  generalize minWidth = x
  generalize minHeight = y
  induction ps generalizing x y with
  | nil => rfl
  | cons p ps ih => exact ih (larger x (right p)) (larger y (bottom p))

theorem isMaximum_fst_boundingBox (ps : List Primitive) :
    IsMaximum (boundingBox ps).1 (minWidth :: ps.map right) := by
  rw [boundingBox_eq]
  exact (Binary64.isMaximum_singleton (by decide)).foldl (ps.map right)

theorem isMaximum_snd_boundingBox (ps : List Primitive) :
    IsMaximum (boundingBox ps).2 (minHeight :: ps.map bottom) := by
  rw [boundingBox_eq]
  exact (Binary64.isMaximum_singleton (by decide)).foldl (ps.map bottom)

/-- The edges that bound a drawing are positive, so a number that equals one is the very same. -/
theorem place_fst_boundingBox_pos (ps : List Primitive) : 0 < place (boundingBox ps).1 := by
  have hle : minWidth ≤ (boundingBox ps).1 :=
    (isMaximum_fst_boundingBox ps).upper minWidth List.mem_cons_self (by decide)
  exact Int.lt_of_lt_of_le (by decide) (Binary64.le_iff_place.mp hle).2

theorem place_snd_boundingBox_pos (ps : List Primitive) : 0 < place (boundingBox ps).2 := by
  have hle : minHeight ≤ (boundingBox ps).2 :=
    (isMaximum_snd_boundingBox ps).upper minHeight List.mem_cons_self (by decide)
  exact Int.lt_of_lt_of_le (by decide) (Binary64.le_iff_place.mp hle).2

/-- The box of two drawings together is the maximum of their boxes. -/
theorem isMaximum_boundingBox_append (ps qs : List Primitive) :
    IsMaximum (boundingBox (ps ++ qs)).1 [(boundingBox ps).1, (boundingBox qs).1] ∧
      IsMaximum (boundingBox (ps ++ qs)).2 [(boundingBox ps).2, (boundingBox qs).2] := by
  constructor
  · refine (isMaximum_fst_boundingBox ps).append (isMaximum_fst_boundingBox qs) ?_
      (place_fst_boundingBox_pos (ps ++ qs))
    refine (isMaximum_fst_boundingBox (ps ++ qs)).congr ?_
    intro x
    simp only [List.map_append, List.mem_cons, List.mem_append]
    tauto
  · refine (isMaximum_snd_boundingBox ps).append (isMaximum_snd_boundingBox qs) ?_
      (place_snd_boundingBox_pos (ps ++ qs))
    refine (isMaximum_snd_boundingBox (ps ++ qs)).congr ?_
    intro x
    simp only [List.map_append, List.mem_cons, List.mem_append]
    tauto

/-- The bounding box is the maximum of the smallest canvas and of all edges that are numbers. It
depends only on which primitives there are, grows with them, and is overstepped by none. -/
theorem boundingBox_maximum (ps : List Primitive) :
    let right := fun p => (corner p).1 + ((width? p).filter (0 < ·)).getD 100
    let bottom := fun p => (corner p).2 + ((height? p).filter (0 < ·)).getD 30
    IsMaximum (boundingBox ps).1 (200 :: ps.map right) ∧
      IsMaximum (boundingBox ps).2 (150 :: ps.map bottom) ∧
      (∀ qs, (∀ p, p ∈ qs ↔ p ∈ ps) → boundingBox qs = boundingBox ps) ∧
      (∀ qs, ps ⊆ qs →
        (boundingBox ps).1 ≤ (boundingBox qs).1 ∧ (boundingBox ps).2 ≤ (boundingBox qs).2) ∧
      (∀ qs, IsMaximum (boundingBox (ps ++ qs)).1 [(boundingBox ps).1, (boundingBox qs).1] ∧
        IsMaximum (boundingBox (ps ++ qs)).2 [(boundingBox ps).2, (boundingBox qs).2]) ∧
      ∀ p ∈ ps, ¬ (boundingBox ps).1 < right p ∧ ¬ (boundingBox ps).2 < bottom p := by
  intro right bottom
  have hright : right = Canvas.right := right_eq.symm
  have hbottom : bottom = Canvas.bottom := bottom_eq.symm
  have hwidth : ∀ qs, IsMaximum (boundingBox qs).1 (200 :: qs.map right) := by
    rw [hright]
    exact isMaximum_fst_boundingBox
  have hheight : ∀ qs, IsMaximum (boundingBox qs).2 (150 :: qs.map bottom) := by
    rw [hbottom]
    exact isMaximum_snd_boundingBox
  refine ⟨hwidth ps, hheight ps, ?_, ?_, isMaximum_boundingBox_append ps, ?_⟩
  · intro qs hmem
    apply Prod.ext
    · exact (hwidth qs).eq_of_mem_iff (hwidth ps) (by simp [hmem]) (place_fst_boundingBox_pos qs)
    · exact (hheight qs).eq_of_mem_iff (hheight ps) (by simp [hmem]) (place_snd_boundingBox_pos qs)
  · intro qs hsubset
    constructor
    · exact (hwidth ps).le_of_subset (hwidth qs)
        (List.cons_subset_cons 200 (List.map_subset right hsubset))
    · exact (hheight ps).le_of_subset (hheight qs)
        (List.cons_subset_cons 150 (List.map_subset bottom hsubset))
  · intro p hp
    constructor
    · exact (hwidth ps).not_lt (List.mem_cons_of_mem _ (List.mem_map_of_mem hp))
    · exact (hheight ps).not_lt (List.mem_cons_of_mem _ (List.mem_map_of_mem hp))

end LabelFleet.Canvas
