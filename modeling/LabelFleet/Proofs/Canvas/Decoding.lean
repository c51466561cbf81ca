import LabelFleet.Proofs.Canvas.Tags

/-! Reading a picture back from its HTML. The tags are told apart by their brackets, the elements by
their classes, and the texts are read back through their entities. -/
namespace LabelFleet.Canvas

open Text (begins)

/-- What can be read of an element: its kind, and its text or caption. -/
inductive Block
  | text (text : String)
  | barcode (caption : String)
  | qrPlaceholder
  | box
  | line
deriving DecidableEq

/-- What can be read of a picture. -/
inductive Outline
  | placeholder (message : String)
  | canvas (blocks : List Block)
deriving DecidableEq

def Element.block : Element → Block
  | text _ _ _ s => .text s
  | barcode _ _ _ caption => .barcode caption
  | qrPlaceholder .. => .qrPlaceholder
  | box .. => .box
  | line .. => .line

def Tree.outline : Tree → Outline
  | placeholder message => .placeholder message
  | canvas _ _ elements => .canvas (elements.map Element.block)

def Tree.elements : Tree → List Element
  | placeholder _ => []
  | canvas _ _ elements => elements

/-- The same element without its text. -/
def Element.blank : Element → Element
  | text left top fontSize _ => text left top fontSize ""
  | barcode left top barHeight _ => barcode left top barHeight ""
  | e => e

/-- The same picture without its texts. -/
def Tree.blank : Tree → Tree
  | placeholder _ => placeholder ""
  | canvas width height elements => canvas width height (elements.map Element.blank)

def Segment.message (s : Segment) : String := String.ofList (unescape s.text)

/-- The element that a tag opens. A barcode's caption stands behind the third tag after its own. -/
def Segment.block? (s : Segment) (behind : List Segment) : Option Block :=
  match s.class? with
  | some "label-element zpl-text" => some (.text s.message)
  | some "label-element zpl-barcode" => behind[2]?.map fun caption => .barcode caption.message
  | some "label-element zpl-qrcode" => some .qrPlaceholder
  | some "label-element zpl-box" => some .box
  | some "label-element zpl-line" => some .line
  | _ => none

def blocks : List Segment → List Block
  | [] => []
  | s :: behind => (s.block? behind).toList ++ blocks behind

/-- Reads a picture from the tags of its HTML; the second one shows whether there is a drawing. -/
def readOutline (ss : List Segment) : Outline :=
  match ss[1]?.filter fun s => s.class? == some "empty-label" with
  | some s => .placeholder s.message
  | none => .canvas (blocks ss)

def decode (html : String) : Outline := readOutline (segments html.toList)

/-- How many blocks of elements begin in a text. -/
def blockCount (html : String) : Nat :=
  occurrences "<div class=\"label-element ".toList html.toList

theorem class?_opening {name : String} (h : delimiters name.toList = [])
    (attributes text : List Char) : (opening name attributes text).class? = some name := by
  have hstart : Text.after? "div class=\"".toList (opening name attributes text).tag =
      some (name.toList ++ '"' :: attributes) := Text.after?_eq_some_iff.mpr rfl
  have hname : ∀ c ∈ name.toList, (c != '"') = true := by
    intro c hc
    rw [bne_iff_ne]
    rintro rfl
    have hq := delimiters_eq_nil_iff.mp h '"' hc
    contradiction
  rw [Segment.class?, hstart, Option.map_some, List.takeWhile_append_of_pos hname]
  simp

theorem class?_closing (text : List Char) : (closing text).class? = none := rfl

theorem Element.class?_opening (e : Element) (text : List Char) :
    (e.opening text).class? = some ("label-element " ++ e.className) :=
  Canvas.class?_opening (delimiters_className e) _ text

theorem message_eq {s : Segment} {text : String} (h : s.text = escapeChars text.toList) :
    s.message = text := by
  rw [Segment.message, h, unescape_escapeChars, String.ofList_toList]

theorem blocks_of_none {s : Segment} (h : ∀ behind, s.block? behind = none)
    (behind : List Segment) : blocks (s :: behind) = blocks behind := by
  rw [blocks, h]
  rfl

theorem blocks_of_some {s : Segment} {b : Block} {behind : List Segment}
    (h : s.block? behind = some b) : blocks (s :: behind) = b :: blocks behind := by
  rw [blocks, h]
  rfl

theorem blocks_closing (text : List Char) (behind : List Segment) :
    blocks (closing text :: behind) = blocks behind := by
  apply blocks_of_none
  intro behind
  rw [Segment.block?, class?_closing]

/-- The blocks around and inside an element are none themselves. -/
theorem blocks_opening {name : String} (h : name ∈ ["label-preview", "bars", "caption"])
    (attributes text : List Char) (behind : List Segment) :
    blocks (opening name attributes text :: behind) = blocks behind := by
  apply blocks_of_none
  intro behind
  have hall : ∀ name ∈ ["label-preview", "bars", "caption"], delimiters name.toList = [] := by
    decide
  rw [Segment.block?, class?_opening (hall name h)]
  simp only [List.mem_cons, List.not_mem_nil, or_false] at h
  rcases h with rfl | rfl | rfl <;> rfl

/-- An element is read back from its tags, whatever follows. -/
theorem blocks_segments_append (e : Element) (behind : List Segment) :
    blocks (e.segments ++ behind) = e.block :: blocks behind := by
  have hclass := e.class?_opening
  cases e with
  | text left top fontSize t =>
    refine (blocks_of_some ?_).trans (congrArg _ (blocks_closing _ _))
    rw [Segment.block?, hclass]
    exact congrArg (fun s => some (Block.text s)) (message_eq rfl)
  | barcode left top barHeight caption =>
    refine (blocks_of_some ?_).trans (congrArg _ ?_)
    · rw [Segment.block?, hclass]
      exact congrArg (fun s => some (Block.barcode s)) (message_eq rfl)
    · rw [List.append_eq, List.cons_append, blocks_opening (by decide)]
      rw [List.cons_append, blocks_closing, List.cons_append, blocks_opening (by decide)]
      rw [List.cons_append, blocks_closing, List.cons_append, blocks_closing, List.nil_append]
  | qrPlaceholder left top size =>
    refine (blocks_of_some ?_).trans (congrArg _ (blocks_closing _ _))
    rw [Segment.block?, hclass]
    rfl
  | box left top width height borderWidth =>
    refine (blocks_of_some ?_).trans (congrArg _ (blocks_closing _ _))
    rw [Segment.block?, hclass]
    rfl
  | line left top width height =>
    refine (blocks_of_some ?_).trans (congrArg _ (blocks_closing _ _))
    rw [Segment.block?, hclass]
    rfl

theorem Element.segments_eq_cons (e : Element) :
    ∃ text behind, e.segments = e.opening text :: behind := by
  cases e <;> exact ⟨_, _, rfl⟩

theorem blocks_flatMap (elements : List Element) (behind : List Segment) :
    blocks (elements.flatMap Element.segments ++ behind) =
      elements.map Element.block ++ blocks behind := by
  induction elements with
  | nil => rfl
  | cons e elements ih =>
    rw [List.flatMap_cons, List.append_assoc, blocks_segments_append, ih]
    rfl

theorem readOutline_segments (tree : Tree) : readOutline tree.segments = tree.outline := by
  cases tree with
  | placeholder message =>
    have hclass : (opening "empty-label" [] (escapeChars message.toList)).class? =
      some "empty-label" := class?_opening (by decide) _ _
    have hmessage : (opening "empty-label" [] (escapeChars message.toList)).message = message :=
      message_eq rfl
    simp [readOutline, Tree.segments, Option.filter_some, hclass, hmessage, Tree.outline]
  | canvas width height elements =>
    have hnone : (Tree.canvas width height elements).segments[1]?.filter
        (fun s => s.class? == some "empty-label") = none := by
      cases elements with
      | nil => rfl
      | cons e elements =>
        obtain ⟨text, behind, h⟩ := e.segments_eq_cons
        have hclass : (e.opening text).class? ≠ some "empty-label" := by
          rw [e.class?_opening]
          cases e <;> (rw [Element.className]; decide)
        simp [Tree.segments, h, hclass]
    rw [readOutline, hnone, Tree.segments, blocks_opening (by decide), blocks_flatMap,
      blocks_closing]
    simp [blocks, Tree.outline]

/-- The tag begins the block of an element. -/
def Segment.opensElement (s : Segment) : Bool := begins "div class=\"label-element ".toList s.tag

theorem Element.opensElement_opening (e : Element) (text : List Char) :
    (e.opening text).opensElement = true := by
  have htag : (e.opening text).tag = "div class=\"label-element ".toList ++
      (e.className.toList ++ '"' :: styled e.style) := by
    change "div class=\"".toList ++ (("label-element " ++ e.className).toList ++ _) = _
    simp
  rw [Segment.opensElement, begins, Text.after?_eq_some_iff.mpr htag]
  rfl

/-- Just the first tag of an element begins the block of an element. -/
theorem Element.countP_segments (e : Element) : e.segments.countP Segment.opensElement = 1 := by
  have hopen := e.opensElement_opening
  have hclose : ∀ text, (closing text).opensElement = false := fun _ => rfl
  have hbars : ∀ attributes, (Canvas.opening "bars" attributes []).opensElement = false :=
    fun _ => rfl
  have hcaption : ∀ text, (Canvas.opening "caption" [] text).opensElement = false := fun _ => rfl
  cases e <;> simp [Element.segments, hopen, hclose, hbars, hcaption]

theorem countP_flatMap (elements : List Element) :
    (elements.flatMap Element.segments).countP Segment.opensElement = elements.length := by
  induction elements with
  | nil => rfl
  | cons e elements ih =>
    rw [List.flatMap_cons, List.countP_append, e.countP_segments, ih, List.length_cons,
      Nat.add_comm]

/-- As many blocks of elements begin in the HTML of a picture as the picture has elements. -/
theorem blockCount_toHtml (tree : Tree) : blockCount tree.toHtml = tree.elements.length := by
  have hstart : "<div class=\"label-element ".toList = '<' :: "div class=\"label-element ".toList :=
    rfl
  rw [blockCount, ← tree.written_segments, hstart,
    occurrences_written (by decide) tree.wellFormed_segments]
  change tree.segments.countP Segment.opensElement = _
  cases tree with
  | placeholder message => rfl
  | canvas width height elements =>
    have hpreview : ∀ attributes,
      (opening "label-preview" attributes ['\n']).opensElement = false := fun _ => rfl
    rw [Tree.segments, List.countP_cons, hpreview, List.countP_append, countP_flatMap]
    rfl

theorem Element.tags_blank (e : Element) :
    e.blank.segments.map Segment.tag = e.segments.map Segment.tag := by
  cases e <;> rfl

/-- The texts of a picture stand in none of its tags. -/
theorem Tree.tags_blank (tree : Tree) :
    tree.blank.segments.map Segment.tag = tree.segments.map Segment.tag := by
  cases tree with
  | placeholder message => rfl
  | canvas width height elements =>
    have h : ∀ elements : List Element,
        ((elements.map Element.blank).flatMap Element.segments).map Segment.tag =
          (elements.flatMap Element.segments).map Segment.tag := by
      intro elements
      induction elements with
      | nil => rfl
      | cons e elements ih =>
        rw [List.map_cons, List.flatMap_cons, List.map_append, ih, e.tags_blank,
          List.flatMap_cons, List.map_append]
    rw [blank, segments, segments]
    simp only [List.map_cons, List.map_append, h]

theorem delimiters_toHtml (tree : Tree) :
    delimiters tree.toHtml.toList = (tree.segments.map Segment.tag).flatMap fun tag =>
      '<' :: (delimiters tag ++ ['>']) := by
  rw [← tree.written_segments, delimiters_written tree.wellFormed_segments]

/-- Nothing of a picture is lost in its HTML and no text of it passes for markup. What the picture
shows can be read back, there are as many blocks of elements as elements, and the brackets and
quotes do not depend on the texts. -/
theorem decode_toHtml (tree : Tree) :
    decode tree.toHtml = tree.outline ∧
      blockCount tree.toHtml = tree.elements.length ∧
      ∀ other : Tree, tree.blank = other.blank →
        delimiters tree.toHtml.toList = delimiters other.toHtml.toList := by
  refine ⟨?_, blockCount_toHtml tree, ?_⟩
  · rw [decode, ← tree.written_segments, segments_written tree.wellFormed_segments,
      readOutline_segments]
  · intro other h
    rw [delimiters_toHtml, delimiters_toHtml, ← tree.tags_blank, ← other.tags_blank, h]

/-- A text that closes its block and opens another, and a caption that looks like escaped markup. -/
theorem decode_toHtml_tags :
    let text := "</div>\n<div class=\"label-element zpl-box\" style=\"\"></div>"
    let caption := "<b>'12\" &lt; 13'</b>"
    let tree : Tree := .canvas 300 200 [.text 10 20 30 text, .barcode 10 60 50 caption]
    let blank : Tree := .canvas 300 200 [.text 10 20 30 "", .barcode 10 60 50 ""]
    decode tree.toHtml = .canvas [.text text, .barcode caption] ∧ blockCount tree.toHtml = 2 ∧
      delimiters tree.toHtml.toList = delimiters blank.toHtml.toList := by
  intro text caption tree blank
  obtain ⟨hdecode, hcount, hdelimiters⟩ := decode_toHtml tree
  exact ⟨hdecode, hcount, hdelimiters blank rfl⟩

end LabelFleet.Canvas
