import LabelFleet.Proofs.Canvas.Entities
import LabelFleet.Proofs.Canvas.Segments
import LabelFleet.Proofs.Number.PlainText

/-! The tags of a picture's HTML. The HTML is written out as the list of its tags, each with the
text behind it; no tag holds a bracket, and no text a delimiter at all. -/
namespace LabelFleet.Canvas

/-- The tag that opens a block; the attributes stand behind its class. -/
def opening (name : String) (attributes text : List Char) : Segment :=
  ⟨"div class=\"".toList ++ (name.toList ++ '"' :: attributes), text⟩

def closing (text : List Char) : Segment := ⟨"/div".toList, text⟩

def styled (declarations : String) : List Char :=
  " style=\"".toList ++ (declarations.toList ++ ['"'])

def Element.opening (e : Element) (text : List Char) : Segment :=
  Canvas.opening ("label-element " ++ e.className) (styled e.style) text

/-- The tags of an element's block; a line end stands behind the last one. -/
def Element.segments (e : Element) : List Segment :=
  match e with
  | text _ _ _ s => [e.opening (escapeChars s.toList), closing ['\n']]
  | barcode _ _ barHeight caption =>
    [e.opening [], Canvas.opening "bars" (styled ("height:" ++ px barHeight ++ ";")) [],
      closing [], Canvas.opening "caption" [] (escapeChars caption.toList), closing [],
      closing ['\n']]
  | qrPlaceholder .. => [e.opening "QR".toList, closing ['\n']]
  | box .. | line .. => [e.opening [], closing ['\n']]

def Tree.segments : Tree → List Segment
  | placeholder message =>
    [opening "label-preview" [] [], opening "empty-label" [] (escapeChars message.toList),
      closing [], closing []]
  | canvas width height elements =>
    opening "label-preview" (styled ("position:relative;" ++ sized width height ++
      "background:#fff;border:1px solid #ccc;")) ['\n'] ::
      (elements.flatMap Element.segments ++ [closing []])

theorem written_opening (name : String) (attributes text : List Char) :
    (opening name attributes text).written =
      "<div class=\"".toList ++ (name.toList ++ '"' :: (attributes ++ '>' :: text)) := by
  unfold opening Segment.written
  simp

theorem written_closing (text : List Char) : (closing text).written = "</div>".toList ++ text := by
  unfold closing Segment.written
  simp

theorem styled_eq (declarations : String) :
    styled declarations = " style=\"".toList ++ (declarations.toList ++ ['"']) := rfl

theorem Element.toList_toHtml (e : Element) :
    e.toHtml.toList = (e.opening e.content.toList).written ++ (closing []).written := by
  have h : e.toHtml = "<div class=\"label-element " ++ e.className ++ "\" style=\"" ++ e.style ++
    "\">" ++ e.content ++ "</div>" := rfl
  rw [h, Element.opening, written_opening, written_closing, styled_eq]
  simp

theorem Element.toList_content_barcode (left top barHeight : Float) (caption : String) :
    (barcode left top barHeight caption).content.toList =
      (Canvas.opening "bars" (styled ("height:" ++ px barHeight ++ ";")) []).written ++
        ((closing []).written ++
        ((Canvas.opening "caption" [] (escapeChars caption.toList)).written ++
        (closing []).written)) := by
  have h : (barcode left top barHeight caption).content =
      "<div class=\"bars\" style=\"height:" ++ px barHeight ++ ";\"></div>" ++
        ("<div class=\"caption\">" ++ escape caption ++ "</div>") := rfl
  rw [h, written_opening, written_opening, written_closing, styled_eq, escape]
  simp

theorem Element.written_opening (e : Element) (text : List Char) :
    (e.opening text).written = (e.opening []).written ++ text := by
  rw [Element.opening, Element.opening, Canvas.written_opening, Canvas.written_opening]
  simp

theorem written_closing_append (text : List Char) :
    (closing text).written = (closing []).written ++ text := by
  rw [written_closing, written_closing, List.append_nil]

/-- A block and the line end behind it consist of the element's tags. -/
theorem Element.written_segments (e : Element) :
    written e.segments = e.toHtml.toList ++ ['\n'] := by
  rw [toList_toHtml, e.written_opening, List.append_assoc, List.append_assoc,
    ← written_closing_append]
  cases e with
  | text left top fontSize s =>
    rw [segments, written_cons, written_cons, Element.written_opening]
    change _ = _ ++ ((escape s).toList ++ _)
    rw [escape, String.toList_ofList, List.append_assoc]
    rfl
  | barcode left top barHeight caption =>
    rw [toList_content_barcode, segments]
    simp only [written_cons, List.append_assoc]
    rfl
  | qrPlaceholder left top size =>
    rw [segments, written_cons, written_cons, Element.written_opening, List.append_assoc]
    rfl
  | box left top width height borderWidth => rfl
  | line left top width height => rfl

/-- The line end in front of each element may as well stand behind it. -/
theorem flatMap_line (f : Element → List Char) (elements : List Element) (rest : List Char) :
    (elements.flatMap fun e => '\n' :: f e) ++ '\n' :: rest =
      '\n' :: ((elements.flatMap fun e => f e ++ ['\n']) ++ rest) := by
  induction elements with
  | nil => rfl
  | cons e elements ih => simp [ih]

theorem written_flatMap (elements : List Element) :
    written (elements.flatMap Element.segments) =
      elements.flatMap fun e => e.toHtml.toList ++ ['\n'] := by
  induction elements with
  | nil => rfl
  | cons e elements ih =>
    rw [List.flatMap_cons, written_append, ih, e.written_segments, List.flatMap_cons]

/-- The HTML of a picture consists of its tags. -/
theorem Tree.written_segments (tree : Tree) : written tree.segments = tree.toHtml.toList := by
  cases tree with
  | placeholder message =>
    have h : (placeholder message).toHtml =
      "<div class=\"label-preview\"><div class=\"empty-label\">" ++ escape message ++
        "</div></div>" := rfl
    rw [h, segments]
    simp only [written_cons, Canvas.written_opening, written_closing, escape]
    simp [written]
  | canvas width height elements =>
    have h : (canvas width height elements).toHtml =
      "<div class=\"label-preview\" style=\"position:relative;" ++ sized width height ++
        "background:#fff;border:1px solid #ccc;\">" ++
        String.join (elements.map fun e => "\n" ++ e.toHtml) ++ "\n</div>" := rfl
    have hlines : ((elements.map fun e => "\n" ++ e.toHtml).flatMap String.toList) =
        elements.flatMap fun e => '\n' :: e.toHtml.toList := by
      rw [List.flatMap_map]
      simp
    have hend : "\n</div>".toList = '\n' :: (closing []).written := by
      rw [written_closing]
      rfl
    rw [h, segments, String.toList_append, String.toList_append, String.toList_join, hlines, hend,
      List.append_assoc, flatMap_line, written_cons, Canvas.written_opening, written_append,
      written_flatMap, styled_eq]
    simp [written]

theorem isDelimiter_of_plain {c : Char} (h : Style.Plain c) : isDelimiter c = false := by
  rcases h with (h | h) | h | h | h
  · cases hc : isDelimiter c with
    | false => rfl
    | true => rcases isDelimiter_iff.mp hc with rfl | rfl | rfl <;> contradiction
  · rw [h]
    rfl
  · rw [h]
    rfl
  · have hall : "inf".toList.all (fun c => isDelimiter c == false) = true := by decide
    exact beq_iff_eq.mp (List.all_eq_true.mp hall c h)
  · have hall : "NaN".toList.all (fun c => isDelimiter c == false) = true := by decide
    exact beq_iff_eq.mp (List.all_eq_true.mp hall c h)

@[simp] theorem delimiters_px (x : Float) : delimiters (px x).toList = [] := by
  have h : (px x).toList = Style.plain.text x ++ ['p', 'x'] := by
    rw [px, String.toList_append, String.toList_ofList]
    rfl
  have htext : delimiters (Style.plain.text x) = [] :=
    delimiters_eq_nil_iff.mpr fun c hc => isDelimiter_of_plain (Style.plain_of_mem_text hc)
  rw [h, delimiters_append, htext]
  rfl

@[simp] theorem delimiters_escapeChars (s : List Char) : delimiters (escapeChars s) = [] := by
  rw [delimiters_eq_nil_iff]
  intro c hc
  rcases entity?_of_mem_escapeChars hc with rfl | h
  · rfl
  · cases hd : isDelimiter c with
    | false => rfl
    | true => rcases isDelimiter_iff.mp hd with rfl | rfl | rfl <;> contradiction

@[simp] theorem delimiters_placed (left top : Float) :
    delimiters (placed left top).toList = [] := by
  have h : placed left top =
    "position:absolute;left:" ++ px left ++ ";top:" ++ px top ++ ";" := rfl
  simp only [h, String.toList_append, delimiters_append, delimiters_px]
  decide

@[simp] theorem delimiters_sized (width height : Float) :
    delimiters (sized width height).toList = [] := by
  have h : sized width height = "width:" ++ px width ++ ";height:" ++ px height ++ ";" := rfl
  simp only [h, String.toList_append, delimiters_append, delimiters_px]
  decide

theorem delimiters_style (e : Element) : delimiters e.style.toList = [] := by
  cases e with
  | text left top fontSize s =>
    have h : (Element.text left top fontSize s).style =
      placed left top ++ "font-size:" ++ px fontSize ++ ";font-family:monospace;" := rfl
    simp only [h, String.toList_append, delimiters_append, delimiters_px, delimiters_placed]
    decide
  | barcode left top barHeight caption => exact delimiters_placed left top
  | qrPlaceholder left top size =>
    have h : (Element.qrPlaceholder left top size).style =
      placed left top ++ sized size size ++ "border:1px solid #000;" := rfl
    simp only [h, String.toList_append, delimiters_append, delimiters_sized, delimiters_placed]
    decide
  | box left top width height borderWidth =>
    have h : (Element.box left top width height borderWidth).style =
      placed left top ++ sized width height ++ "border:" ++ px borderWidth ++ " solid #000;" ++
        "box-sizing:border-box;" := rfl
    simp only [h, String.toList_append, delimiters_append, delimiters_px, delimiters_sized,
      delimiters_placed]
    decide
  | line left top width height =>
    have h : (Element.line left top width height).style =
      placed left top ++ sized width height ++ "background:#000;" := rfl
    simp only [h, String.toList_append, delimiters_append, delimiters_sized, delimiters_placed]
    decide

theorem delimiters_styled {declarations : String} (h : delimiters declarations.toList = []) :
    delimiters (styled declarations) = ['"', '"'] := by
  rw [styled_eq, delimiters_append, delimiters_append, h]
  decide

theorem wellFormed_opening {name : String} {attributes text : List Char}
    (hname : delimiters name.toList = []) (hattributes : ∀ d ∈ delimiters attributes, d = '"')
    (htext : delimiters text = []) : (opening name attributes text).WellFormed := by
  refine ⟨?_, htext⟩
  have htag : (opening name attributes text).tag =
    "div class=\"".toList ++ (name.toList ++ '"' :: attributes) := rfl
  have hstart : delimiters "div class=\"".toList = ['"'] := by decide
  rw [htag, delimiters_append, delimiters_append, hname, hstart]
  simpa [delimiters, isDelimiter] using hattributes

theorem wellFormed_closing {text : List Char} (h : delimiters text = []) :
    (closing text).WellFormed := by
  have htag : delimiters "/div".toList = [] := by decide
  refine ⟨?_, h⟩
  rw [closing, htag]
  simp

theorem delimiters_className (e : Element) :
    delimiters ("label-element " ++ e.className).toList = [] := by
  cases e <;> (rw [Element.className]; decide)

theorem Element.wellFormed_opening (e : Element) {text : List Char} (h : delimiters text = []) :
    (e.opening text).WellFormed := by
  refine Canvas.wellFormed_opening (delimiters_className e) ?_ h
  rw [delimiters_styled (delimiters_style e)]
  simp

theorem Element.wellFormed_segments (e : Element) : ∀ s ∈ e.segments, s.WellFormed := by
  have hend : (closing ['\n']).WellFormed := wellFormed_closing rfl
  cases e with
  | text left top fontSize t =>
    have hopen := (text left top fontSize t).wellFormed_opening (delimiters_escapeChars t.toList)
    simp [segments, hopen, hend]
  | barcode left top barHeight caption =>
    have hopen := (barcode left top barHeight caption).wellFormed_opening delimiters_nil
    have hheight : delimiters ("height:" ++ px barHeight ++ ";").toList = [] := by
      simp only [String.toList_append, delimiters_append, delimiters_px]
      decide
    have hbars :
        (Canvas.opening "bars" (styled ("height:" ++ px barHeight ++ ";")) []).WellFormed := by
      refine Canvas.wellFormed_opening (by decide) ?_ delimiters_nil
      rw [delimiters_styled hheight]
      simp
    have hcaption : (Canvas.opening "caption" [] (escapeChars caption.toList)).WellFormed :=
      Canvas.wellFormed_opening (by decide) (by simp) (delimiters_escapeChars caption.toList)
    have hclose : (closing []).WellFormed := wellFormed_closing delimiters_nil
    simp [segments, hopen, hbars, hcaption, hclose, hend]
  | qrPlaceholder left top size =>
    have hopen := (qrPlaceholder left top size).wellFormed_opening
      (by decide : delimiters "QR".toList = [])
    simp only [segments, List.mem_cons, List.not_mem_nil, or_false, forall_eq_or_imp, forall_eq]
    exact ⟨hopen, hend⟩
  | box left top width height borderWidth =>
    have hopen := (box left top width height borderWidth).wellFormed_opening delimiters_nil
    simp [segments, hopen, hend]
  | line left top width height =>
    have hopen := (line left top width height).wellFormed_opening delimiters_nil
    simp [segments, hopen, hend]

theorem Tree.wellFormed_segments (tree : Tree) : ∀ s ∈ tree.segments, s.WellFormed := by
  have hclose : (closing []).WellFormed := wellFormed_closing delimiters_nil
  cases tree with
  | placeholder message =>
    have hpreview : (opening "label-preview" [] []).WellFormed :=
      wellFormed_opening (by decide) (by simp) delimiters_nil
    have hempty : (opening "empty-label" [] (escapeChars message.toList)).WellFormed :=
      wellFormed_opening (by decide) (by simp) (delimiters_escapeChars message.toList)
    simp [segments, hpreview, hempty, hclose]
  | canvas width height elements =>
    have hstyle : delimiters ("position:relative;" ++ sized width height ++
        "background:#fff;border:1px solid #ccc;").toList = [] := by
      simp only [String.toList_append, delimiters_append, delimiters_sized]
      decide
    intro s hs
    rw [segments, List.mem_cons, List.mem_append, List.mem_flatMap, List.mem_singleton] at hs
    rcases hs with rfl | ⟨e, -, hs⟩ | rfl
    · refine wellFormed_opening (by decide) ?_ rfl
      rw [delimiters_styled hstyle]
      simp
    · exact e.wellFormed_segments s hs
    · exact hclose

end LabelFleet.Canvas
