import LabelFleet.Proofs.Markup.Drawing
import LabelFleet.Proofs.Markup.Gaps
import LabelFleet.Proofs.Previewing

/-! What a label shows, told from its text alone. The places that print are found by looking for
marks and at what stands behind them; the preview has one element for each of them, in their order,
and is a message if there are none. -/
namespace LabelFleet
open Markup Text

namespace Markup
open Arguments

/-- The text behind a mark up to the next leader, without the blank characters at its end. -/
def PayloadBehind (rest text : List Char) : Prop :=
  ∃ raw more, rest = raw ++ more ∧ (∀ c ∈ raw, c ≠ '^' ∧ c ≠ '~') ∧
    (∀ c ∈ more.head?, c = '^' ∨ c = '~') ∧ TrimmedEnd raw text

/-- At byte `i` stands a mark that prints something, together with what is behind it. -/
inductive PrintsAt (markup : String) (i : Nat) : Opcode → Prop
  | barcode (mark : OccursAt "^BC" markup i) : PrintsAt markup i .barcode128
  | qrCode (mark : OccursAt "^BQ" markup i) : PrintsAt markup i .qrCode
  | box {rest : String} {xs ys zs : List Char} (mark : StandsAt "^GB" markup i rest)
      (width : Run xs) (height : Run ys) (thickness : Run zs)
      (sides : xs ++ ',' :: (ys ++ ',' :: zs) <+: rest.toList) : PrintsAt markup i .graphicBox
  | text {rest : String} {text : List Char} (mark : StandsAt "^FD" markup i rest)
      (payload : PayloadBehind rest.toList text) (nonempty : text ≠ []) (lf : '\n' ∉ text)
      (cr : '\r' ∉ text) : PrintsAt markup i .fieldData

/-- The opcode of the commands that draw such a primitive. -/
def Primitive.opcode : Primitive → Opcode
  | .text .. => .fieldData
  | .barcode .. => .barcode128
  | .qrCode .. => .qrCode
  | .box .. => .graphicBox
  | .line .. => .graphicBox

theorem payloadBehind_iff {rest text : List Char} :
    PayloadBehind rest text ↔ payload rest = text := by
  have leader : ∀ c : Char, isLeader c = false ↔ c ≠ '^' ∧ c ≠ '~' := fun c => by
    rw [Bool.eq_false_iff, Ne, isLeader_iff, not_or]
  simp only [PayloadBehind, ← leader, ← isLeader_iff, trimmedEnd_iff]
  constructor
  · rintro ⟨raw, more, rfl, hraw, hmore, htext⟩
    rw [payload, takeWhile_append_stop, htext]
    · exact fun c hc => by simp [hraw c hc]
    · exact fun c hc => by simp [hmore c hc]
  · intro htext
    refine ⟨_, _, List.takeWhile_append_dropWhile.symm, ?_, ?_, htext⟩
    · intro c hc
      simpa using List.all_eq_true.mp List.all_takeWhile c hc
    · intro c hc
      have hhead := List.head?_dropWhile_not (fun d => !isLeader d) rest
      rw [Option.mem_def.mp hc] at hhead
      simpa using hhead

/-- The payload behind a mark begins with three numbers exactly if the text there does. -/
theorem sides_payload_iff {rest : List Char} : (∃ x y z, BeginsTriple (payload rest) x y z) ↔
    ∃ xs ys zs, Run xs ∧ Run ys ∧ Run zs ∧ xs ++ ',' :: (ys ++ ',' :: zs) <+: rest := by
  rw [exists_beginsTriple_iff]
  have plain : ∀ {xs}, Run xs → ∀ c ∈ xs, isLeader c = false ∧ isBlank c = false := by
    intro xs hxs c hc
    have halnum := isAlphanum_iff.mpr (.inr (hxs.2 c hc))
    exact ⟨not_isLeader_of_isAlphanum halnum, not_isBlank_of_isAlphanum halnum⟩
  have comma : isLeader ',' = false ∧ isBlank ',' = false := by decide
  have hfront : ∀ {xs ys zs}, Run xs → Run ys → Run zs →
      (xs ++ ',' :: (ys ++ ',' :: zs) <+: payload rest ↔
        xs ++ ',' :: (ys ++ ',' :: zs) <+: rest) := by
    intro xs ys zs hxs hys hzs
    apply prefix_payload_iff
    simp only [List.forall_mem_append, List.forall_mem_cons]
    exact ⟨plain hxs, comma, plain hys, comma, plain hzs⟩
  constructor
  · rintro ⟨xs, ys, zs, hxs, hys, hzs, h⟩
    exact ⟨xs, ys, zs, hxs, hys, hzs, (hfront hxs hys hzs).mp h⟩
  · rintro ⟨xs, ys, zs, hxs, hys, hzs, h⟩
    exact ⟨xs, ys, zs, hxs, hys, hzs, (hfront hxs hys hzs).mpr h⟩

/-- The places that print are those of the commands that draw. -/
theorem printsAt_iff {markup : String} {i : Nat} {op : Opcode} :
    PrintsAt markup i op ↔ ∃ t ∈ tokenize markup, t.start = i ∧ t.opcode = op ∧ Emits t := by
  have hbarcode : Opcode.barcode128.mark? = some "^BC" := rfl
  have hqrCode : Opcode.qrCode.mark? = some "^BQ" := rfl
  have hbox : Opcode.graphicBox.mark? = some "^GB" := rfl
  have htext : Opcode.fieldData.mark? = some "^FD" := rfl
  constructor
  · intro h
    cases h with
    | barcode mark =>
      obtain ⟨t, ht, hop, hi⟩ := (exists_mem_tokenize_iff hbarcode).mpr mark
      exact ⟨t, ht, hi, hop, .barcode hop⟩
    | qrCode mark =>
      obtain ⟨t, ht, hop, hi⟩ := (exists_mem_tokenize_iff hqrCode).mpr mark
      exact ⟨t, ht, hi, hop, .qrCode hop⟩
    | box mark width height thickness sides =>
      obtain ⟨t, ht, hi, hop, hargs⟩ := mem_tokenize_of_standsAt hbox mark
      obtain ⟨x, y, z, hxyz⟩ := sides_payload_iff.mpr ⟨_, _, _, width, height, thickness, sides⟩
      exact ⟨t, ht, hi, hop, .box hop (hargs ▸ hxyz)⟩
    | text mark payload nonempty lf cr =>
      obtain ⟨t, ht, hi, hop, hargs⟩ := mem_tokenize_of_standsAt htext mark
      rw [payloadBehind_iff.mp payload] at hargs
      subst hargs
      exact ⟨t, ht, hi, hop, .text hop nonempty lf cr⟩
  · rintro ⟨t, ht, rfl, rfl, hemits⟩
    cases hemits with
    | barcode op =>
      rw [op]
      exact .barcode ((exists_mem_tokenize_iff hbarcode).mp ⟨t, ht, op, rfl⟩)
    | qrCode op =>
      rw [op]
      exact .qrCode ((exists_mem_tokenize_iff hqrCode).mp ⟨t, ht, op, rfl⟩)
    | text op nonempty lf cr =>
      obtain ⟨rest, mark, hargs⟩ := standsAt_of_mem_tokenize htext ht op
      rw [op]
      exact .text mark (payloadBehind_iff.mpr hargs.symm) nonempty lf cr
    | box op sides =>
      obtain ⟨rest, mark, hargs⟩ := standsAt_of_mem_tokenize hbox ht op
      obtain ⟨xs, ys, zs, width, height, thickness, hsides⟩ :=
        sides_payload_iff.mp ⟨_, _, _, hargs ▸ sides⟩
      rw [op]
      exact .box mark width height thickness hsides

theorem Draws.opcode_eq {scale x y size : Float} {t : Token} {p : Primitive}
    (h : Draws scale x y size t p) : p.opcode = t.opcode := by
  cases h <;> simp only [Primitive.opcode, *]

instance (t : Token) : Decidable (Emits t) :=
  decidable_of_iff ((draw? (.start 1 1) t).isSome = true)
    (by rw [emits_iff, Option.isSome_iff_exists])

/-- A run draws one primitive for each command that draws, of the sort that its opcode tells. -/
theorem forall₂_interpretFrom (c : Cursor) (commands : List Token) :
    (commands.filter Emits).Forall₂ (fun t p => p.opcode = t.opcode) (interpretFrom c commands) := by
  induction commands generalizing c with
  | nil => exact .nil
  | cons t commands ih =>
    by_cases h : Emits t
    · obtain ⟨p, hp⟩ := (emits_iff c).mp h
      rw [List.filter_cons_of_pos (by simpa using h), interpretFrom, hp]
      exact .cons (draw?_eq_some_iff.mp hp).opcode_eq (ih (advance c t))
    · rw [List.filter_cons_of_neg (by simpa using h), interpretFrom, draw?_of_not_emits h]
      exact ih (advance c t)

end Markup

namespace Canvas

/-- The opcode of the commands that such an element comes from. -/
def Element.opcode : Element → Opcode
  | .text .. => .fieldData
  | .barcode .. => .barcode128
  | .qrPlaceholder .. => .qrCode
  | .box .. => .graphicBox
  | .line .. => .graphicBox

theorem Element.opcode_ofPrimitive (p : Primitive) :
    (Element.ofPrimitive p).opcode = p.opcode := by
  cases p <;> rfl

theorem render_nil :
    render [] = ⟨.placeholder "No printable content detected", ⟨0, []⟩⟩ := rfl

theorem render_of_ne_nil {ps : List Primitive} (h : ps ≠ []) :
    render ps = ⟨.canvas ((boundingBox ps).1 + padding) ((boundingBox ps).2 + padding)
      (ps.map Element.ofPrimitive), ⟨ps.length, countKinds ps⟩⟩ := by
  rw [render, Tree.ofPrimitives, if_neg (by simpa using h)]
  rfl

end Canvas

/-- The elements of a drawn markup belong to the places that print, one to one and in order. -/
theorem exists_places (options : Options) (markup : String) : ∃ places : List Nat,
    places.Pairwise (· < ·) ∧ (∀ i, i ∈ places ↔ ∃ op, PrintsAt markup i op) ∧
      places.Forall₂ (fun i e => PrintsAt markup i e.opcode)
        ((interpret options (tokenize markup)).map Canvas.Element.ofPrimitive) := by
  have hdrawn := forall₂_interpretFrom (.start options.scale options.fontSize) (tokenize markup)
  have hmem : ∀ t, t ∈ (tokenize markup).filter Emits ↔ t ∈ tokenize markup ∧ Emits t := by
    simp
  refine ⟨((tokenize markup).filter Emits).map Token.start, ?_, fun i => ?_, ?_⟩
  · exact List.pairwise_map.mpr ((pairwise_start markup).filter _)
  · simp only [List.mem_map, hmem, printsAt_iff]
    constructor
    · rintro ⟨t, ⟨ht, hemits⟩, hi⟩
      exact ⟨t.opcode, t, ht, hi, rfl, hemits⟩
    · rintro ⟨op, t, ht, hi, -, hemits⟩
      exact ⟨t, ⟨ht, hemits⟩, hi⟩
  · rw [List.forall₂_map_left_iff, List.forall₂_map_right_iff]
    refine ((List.forall₂_and_left _ _).mpr ⟨fun t ht => (hmem t).mp ht, hdrawn⟩).imp ?_
    intro t p h
    obtain ⟨⟨ht, hemits⟩, hop⟩ := h
    rw [Canvas.Element.opcode_ofPrimitive, hop, printsAt_iff]
    exact ⟨t, ht, rfl, rfl, hemits⟩

/-- A label shows what its text prints. It is a message without any counts if nothing in the text
prints, and otherwise a canvas with one element for each place that prints, in the order of the
places and each of the sort that its mark tells. -/
theorem label_shows_prints (options : Options) (markup : String)
    (h : ∃ i, OccursAt "^XA" markup i) :
    (Preview.ofMarkup options markup =
          .label ⟨.placeholder "No printable content detected", ⟨0, []⟩⟩ ↔
        ∀ i op, ¬ PrintsAt markup i op) ∧
      ((∃ i op, PrintsAt markup i op) → ∃ (places : List Nat) (width height : Float)
          (elements : List Canvas.Element) (types : List (Kind × Nat)),
        Preview.ofMarkup options markup =
            .label ⟨.canvas width height elements, ⟨places.length, types⟩⟩ ∧
          places.Pairwise (· < ·) ∧ (∀ i, i ∈ places ↔ ∃ op, PrintsAt markup i op) ∧
          elements.length = places.length ∧
          places.Forall₂ (fun i e => PrintsAt markup i e.opcode) elements) := by
  have hpreview : Preview.ofMarkup options markup =
      .label (Canvas.render (interpret options (tokenize markup))) :=
    Preview.ofMarkup_of_label (classify_eq_label_iff.mpr (exists_occursAt_iff.mp h))
  obtain ⟨places, hsorted, hmem, hall⟩ := exists_places options markup
  have hlength := hall.length_eq
  generalize interpret options (tokenize markup) = ps at hpreview hall hlength
  rw [hpreview]
  rw [List.length_map] at hlength
  have hnil : ps = [] ↔ ∀ i op, ¬ PrintsAt markup i op := by
    rw [← List.length_eq_zero_iff, ← hlength, List.length_eq_zero_iff,
      List.eq_nil_iff_forall_not_mem]
    simp only [hmem, not_exists]
  constructor
  · rw [← hnil]
    constructor
    · intro heq
      by_contra hne
      rw [Canvas.render_of_ne_nil hne] at heq
      simp at heq
    · rintro rfl
      rw [Canvas.render_nil]
  · intro hprints
    have hne : ps ≠ [] := by
      rw [Ne, hnil]
      push Not
      exact hprints
    rw [Canvas.render_of_ne_nil hne, ← hlength]
    exact ⟨places, _, _, _, _, rfl, hsorted, hmem, hall.length_eq.symm, hall⟩

/-- A field that is blank prints nothing, and the QR code behind it does. -/
theorem label_shows_prints_qrCode :
    (OccursAt "^XA" "^XA^FD \n^BQ" 0 ∧ PrintsAt "^XA^FD \n^BQ" 8 .qrCode) ∧
      ∃ width height elements info, Preview.ofMarkup {} "^XA^FD \n^BQ" =
        .label ⟨.canvas width height elements, info⟩ := by
  have hlabel : OccursAt "^XA" "^XA^FD \n^BQ" 0 := ⟨"^FD \n^BQ", "", by decide, by decide⟩
  have hprints : PrintsAt "^XA^FD \n^BQ" 8 .qrCode :=
    .qrCode ⟨"", "^XA^FD \n", by decide, by decide⟩
  obtain ⟨-, hcanvas⟩ := label_shows_prints {} "^XA^FD \n^BQ" ⟨0, hlabel⟩
  obtain ⟨places, width, height, elements, types, hpreview, -⟩ := hcanvas ⟨8, _, hprints⟩
  exact ⟨⟨hlabel, hprints⟩, width, height, elements, _, hpreview⟩

end LabelFleet
