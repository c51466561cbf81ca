import LabelFleet.Markup.Interpret
import LabelFleet.Proofs.Markup.ArgumentForms
import Mathlib.Data.List.Forall2
import Mathlib.Data.List.Sort

/-! Drawing without a cursor. What a command draws is told here by looking back: the origin is the
one that was written last before it, and so is the font size. -/
namespace LabelFleet.Markup
open Arguments

section LastWritten

variable {α : Type}

/-- What the last command that writes anything has written, or the initial value if none does. -/
inductive LastWritten (writes : Token → α → Prop) (initial : α) (commands : List Token) : α → Prop
  | written {early late : List Token} {t : Token} {a : α} :
      commands = early ++ t :: late → writes t a → (∀ u ∈ late, ∀ b, ¬ writes u b) →
      LastWritten writes initial commands a
  | unwritten : (∀ u ∈ commands, ∀ b, ¬ writes u b) → LastWritten writes initial commands initial

variable {writes : Token → α → Prop} {initial : α} {commands : List Token} {a : α}
  {written? : Token → Option α}

/-- The last value that a list of commands writes, computed. -/
def lastValue (written? : Token → Option α) (initial : α) (commands : List Token) : α :=
  ((commands.filterMap written?).getLast?).getD initial

theorem lastValue_cons (written? : Token → Option α) (initial : α) (t : Token)
    (commands : List Token) :
    lastValue written? initial (t :: commands) =
      lastValue written? ((written? t).getD initial) commands := by
  unfold lastValue
  cases ht : written? t with
  | none => rw [List.filterMap_cons_none ht]; rfl
  | some b => rw [List.filterMap_cons_some ht, List.getLast?_cons]; rfl

/-- A list of commands that writes at all leaves a value that does not depend on the initial one. -/
theorem lastValue_of_mem {t : Token} (ht : t ∈ commands) (hw : (written? t).isSome = true)
    (initial other : α) :
    lastValue written? initial commands = lastValue written? other commands := by
  induction commands generalizing initial other with
  | nil => contradiction
  | cons u commands ih =>
    rw [lastValue_cons, lastValue_cons]
    rcases List.mem_cons.mp ht with rfl | ht
    · obtain ⟨a, ha⟩ := Option.isSome_iff_exists.mp hw
      rw [ha]
      rfl
    · exact ih ht _ _

theorem exists_lastWritten (writes : Token → α → Prop) (initial : α) (commands : List Token) :
    ∃ a, LastWritten writes initial commands a := by
  induction commands with
  | nil => exact ⟨initial, .unwritten (by simp)⟩
  | cons t commands ih =>
    obtain ⟨a, h⟩ := ih
    cases h with
    | @written early late u _ hsplit hu hlate =>
      exact ⟨a, .written (by rw [hsplit, List.cons_append]) hu hlate⟩
    | unwritten hnone =>
      by_cases ht : ∃ b, writes t b
      · obtain ⟨b, hb⟩ := ht
        exact ⟨b, .written (List.nil_append _).symm hb hnone⟩
      · refine ⟨initial, .unwritten ?_⟩
        intro u hu b hb
        rcases List.mem_cons.mp hu with rfl | hu
        · exact ht ⟨b, hb⟩
        · exact hnone u hu b hb

/-- Where a command writes at most one value, the last one written can be computed. -/
theorem lastWritten_iff (hw : ∀ t a, writes t a ↔ written? t = some a) :
    LastWritten writes initial commands a ↔ lastValue written? initial commands = a := by
  have silent : ∀ ts : List Token, (∀ u ∈ ts, ∀ b, ¬ writes u b) → ts.filterMap written? = [] := by
    intro ts h
    rw [List.filterMap_eq_nil_iff]
    intro u hu
    rw [Option.eq_none_iff_forall_ne_some]
    exact fun b hb => h u hu b ((hw u b).mpr hb)
  have sound : ∀ b, LastWritten writes initial commands b →
      lastValue written? initial commands = b := by
    intro b h
    unfold lastValue
    cases h with
    | written hsplit ht hlate =>
      rw [hsplit, List.filterMap_append, List.filterMap_cons_some ((hw _ _).mp ht),
        silent _ hlate]
      simp
    | unwritten hnone => rw [silent _ hnone]; rfl
  refine ⟨sound a, ?_⟩
  rintro rfl
  obtain ⟨b, hb⟩ := exists_lastWritten writes initial commands
  rwa [sound b hb]

end LastWritten

/-- A field origin that can be read. -/
def WritesOrigin (scale : Float) (t : Token) (origin : Float × Float) : Prop :=
  t.opcode = .fieldOrigin ∧ ∃ x y, BeginsPair t.args x y ∧ origin = (x * scale, y * scale)

/-- A font selection that can be read; of it only the height counts. -/
def WritesFont (scale : Float) (t : Token) (size : Float) : Prop :=
  t.opcode = .fontSelect ∧ ∃ height width, BeginsUpperPair t.args height width ∧
    size = height * scale

/-- The commands that draw something. -/
inductive Emits (t : Token) : Prop
  | barcode (op : t.opcode = .barcode128)
  | qrCode (op : t.opcode = .qrCode)
  | text (op : t.opcode = .fieldData) (nonempty : t.args ≠ []) (lf : '\n' ∉ t.args)
      (cr : '\r' ∉ t.args)
  | box (op : t.opcode = .graphicBox) {w h b : Float} (sides : BeginsTriple t.args w h b)

/-- What a command draws at an origin and in a font size that come from elsewhere. -/
inductive Draws (scale x y size : Float) (t : Token) : Primitive → Prop
  | text (op : t.opcode = .fieldData) (nonempty : t.args ≠ []) (lf : '\n' ∉ t.args)
      (cr : '\r' ∉ t.args) : Draws scale x y size t (.text x y size (String.ofList t.args))
  | barcode (op : t.opcode = .barcode128) {height : Float}
      (measure : BeginsUpperNumber t.args height) :
      Draws scale x y size t (.barcode x y (height * scale) .code128)
  | plainBarcode (op : t.opcode = .barcode128) (measure : ∀ h, ¬ BeginsUpperNumber t.args h) :
      Draws scale x y size t (.barcode x y 50 .code128)
  | qrCode (op : t.opcode = .qrCode) {model step : Float}
      (measure : BeginsUpperPair t.args model step) :
      Draws scale x y size t (.qrCode x y (step * 10 * scale))
  | plainQrCode (op : t.opcode = .qrCode) (measure : ∀ m s, ¬ BeginsUpperPair t.args m s) :
      Draws scale x y size t (.qrCode x y 50)
  | horizontal (op : t.opcode = .graphicBox) {w h b : Float} (sides : BeginsTriple t.args w h b)
      (flat : h * scale < 3) :
      Draws scale x y size t (.line x y (w * scale) (Binary64.larger (b * scale) 1) .horizontal)
  | vertical (op : t.opcode = .graphicBox) {w h b : Float} (sides : BeginsTriple t.args w h b)
      (high : ¬ h * scale < 3) (flat : w * scale < 3) :
      Draws scale x y size t (.line x y (Binary64.larger (b * scale) 1) (h * scale) .vertical)
  | box (op : t.opcode = .graphicBox) {w h b : Float} (sides : BeginsTriple t.args w h b)
      (high : ¬ h * scale < 3) (wide : ¬ w * scale < 3) :
      Draws scale x y size t (.box x y (w * scale) (h * scale) (b * scale))

/-- What the command at a place draws, told from it and the commands before it. -/
def DrawnAt (options : Options) (commands : List Token) (k : Nat) (p : Primitive) : Prop :=
  ∃ t x y size, commands[k]? = some t ∧
    LastWritten (WritesOrigin options.scale) (0, 0) (commands.take k) (x, y) ∧
    LastWritten (WritesFont options.scale) options.fontSize (commands.take k) size ∧
    Draws options.scale x y size t p

/-- The primitives of all the commands that draw, in the order of the commands. -/
def Drawing (options : Options) (commands : List Token) (ps : List Primitive) : Prop :=
  ∃ places : List Nat, places.Pairwise (· < ·) ∧
    (∀ k, k ∈ places ↔ ∃ t, commands[k]? = some t ∧ Emits t) ∧
    places.Forall₂ (DrawnAt options commands) ps

theorem fieldData?_eq_some_iff {c : Cursor} {args : List Char} {p : Primitive} :
    fieldData? c args = some p ↔ args ≠ [] ∧ '\n' ∉ args ∧ '\r' ∉ args ∧
      p = .text c.x c.y c.fontSize (String.ofList args) := by
  unfold fieldData?
  by_cases h : args = [] ∨ '\n' ∈ args ∨ '\r' ∈ args
  · rw [if_pos (by simpa using h)]
    simp only [reduceCtorEq, false_iff]
    tauto
  · rw [if_neg (by simpa using h), Option.some.injEq, eq_comm]
    tauto

theorem draw?_eq_some_iff {c : Cursor} {t : Token} {p : Primitive} :
    draw? c t = some p ↔ Draws c.scale c.x c.y c.fontSize t p := by
  constructor
  · intro h
    unfold draw? at h
    split at h
    · next op =>
      obtain ⟨hne, hlf, hcr, rfl⟩ := fieldData?_eq_some_iff.mp h
      exact .text op hne hlf hcr
    · next op =>
      obtain rfl := Option.some.inj h
      unfold barcode
      cases hm : upperNumber t.args with
      | none => exact .plainBarcode op (upperNumber_eq_none_iff.mp hm)
      | some height => exact .barcode op (upperNumber_eq_some_iff.mp hm)
    · next op =>
      obtain rfl := Option.some.inj h
      unfold qrCode
      cases hm : upperPair t.args with
      | none => exact .plainQrCode op (upperPair_eq_none_iff.mp hm)
      | some measure => exact .qrCode op (upperPair_eq_some_iff.mp hm)
    · next op =>
      obtain ⟨⟨w, h, b⟩, hsides, rfl⟩ := Option.map_eq_some_iff.mp h
      have sides := triple_eq_some_iff.mp hsides
      dsimp only
      split
      · next flat => exact .horizontal op sides flat
      · next high =>
        split
        · next flat => exact .vertical op sides high flat
        · next wide => exact .box op sides high wide
    · contradiction
  · intro h
    cases h with
    | text op hne hlf hcr =>
      simpa [draw?, op] using fieldData?_eq_some_iff.mpr ⟨hne, hlf, hcr, rfl⟩
    | barcode op measure => simp [draw?, op, Markup.barcode, upperNumber_eq_some_iff.mpr measure]
    | plainBarcode op measure =>
      simp [draw?, op, Markup.barcode, upperNumber_eq_none_iff.mpr measure, barcodeHeight]
    | qrCode op measure =>
      simp [draw?, op, Markup.qrCode, upperPair_eq_some_iff.mpr measure, qrUnit]
    | plainQrCode op measure =>
      simp [draw?, op, Markup.qrCode, upperPair_eq_none_iff.mpr measure, qrSize]
    | horizontal op sides flat =>
      simp [draw?, op, graphicBox?, ruleLimit, triple_eq_some_iff.mpr sides, flat]
    | vertical op sides high flat =>
      simp [draw?, op, graphicBox?, ruleLimit, triple_eq_some_iff.mpr sides, high, flat]
    | box op sides high wide =>
      simp [draw?, op, graphicBox?, ruleLimit, triple_eq_some_iff.mpr sides, high, wide]

/-- Whether a command draws does not depend on the cursor. -/
theorem emits_iff {t : Token} (c : Cursor) : Emits t ↔ ∃ p, draw? c t = some p := by
  simp only [draw?_eq_some_iff]
  constructor
  · intro h
    cases h with
    | barcode op =>
      by_cases hm : ∃ h, BeginsUpperNumber t.args h
      · obtain ⟨h, hm⟩ := hm
        exact ⟨_, .barcode op hm⟩
      · exact ⟨_, .plainBarcode op (not_exists.mp hm)⟩
    | qrCode op =>
      by_cases hm : ∃ m s, BeginsUpperPair t.args m s
      · obtain ⟨m, s, hm⟩ := hm
        exact ⟨_, .qrCode op hm⟩
      · exact ⟨_, .plainQrCode op fun m s hb => hm ⟨m, s, hb⟩⟩
    | text op hne hlf hcr => exact ⟨_, .text op hne hlf hcr⟩
    | @box op w h b sides =>
      by_cases high : h * c.scale < ruleLimit
      · exact ⟨_, .horizontal op sides high⟩
      · by_cases wide : w * c.scale < ruleLimit
        · exact ⟨_, .vertical op sides high wide⟩
        · exact ⟨_, .box op sides high wide⟩
  · rintro ⟨p, h⟩
    cases h with
    | text op hne hlf hcr => exact .text op hne hlf hcr
    | barcode op => exact .barcode op
    | plainBarcode op => exact .barcode op
    | qrCode op => exact .qrCode op
    | plainQrCode op => exact .qrCode op
    | horizontal op sides => exact .box op sides
    | vertical op sides => exact .box op sides
    | box op sides => exact .box op sides

theorem draw?_of_not_emits {t : Token} (h : ¬ Emits t) (c : Cursor) : draw? c t = none := by
  rw [Option.eq_none_iff_forall_ne_some]
  intro p hp
  exact h ((emits_iff c).mpr ⟨p, hp⟩)

/-- What a command writes as the origin. -/
def origin? (scale : Float) (t : Token) : Option (Float × Float) :=
  if t.opcode = .fieldOrigin then
    (pair t.args).map fun (x, y) => (x * scale, y * scale)
  else none

/-- What a command writes as the font size. -/
def font? (scale : Float) (t : Token) : Option Float :=
  if t.opcode = .fontSelect then (upperPair t.args).map fun (height, _) => height * scale else none

theorem writesOrigin_iff {scale : Float} (t : Token) (o : Float × Float) :
    WritesOrigin scale t o ↔ origin? scale t = some o := by
  unfold WritesOrigin origin?
  by_cases op : t.opcode = .fieldOrigin
  · simp only [op, if_pos, true_and, Option.map_eq_some_iff, Prod.exists, pair_eq_some_iff,
      @eq_comm _ o]
  · simp [op]

theorem writesFont_iff {scale : Float} (t : Token) (size : Float) :
    WritesFont scale t size ↔ font? scale t = some size := by
  unfold WritesFont font?
  by_cases op : t.opcode = .fontSelect
  · simp only [op, if_pos, true_and, Option.map_eq_some_iff, Prod.exists, upperPair_eq_some_iff,
      @eq_comm _ size]
  · simp [op]

/-- One command moves the cursor to the origin that it writes and gives it the size it writes. -/
theorem advance_eq (c : Cursor) (t : Token) :
    advance c t = ⟨((origin? c.scale t).getD (c.x, c.y)).1, ((origin? c.scale t).getD (c.x, c.y)).2,
      (font? c.scale t).getD c.fontSize, c.scale⟩ := by
  unfold advance origin? font?
  split
  · next op =>
    rw [Cursor.moveTo]
    cases h : pair t.args <;> simp [op]
  · next op =>
    rw [Cursor.selectFont]
    cases h : upperPair t.args <;> simp [op]
  · next hx hf => rw [if_neg hx, if_neg hf]; rfl

/-- The cursor behind some commands stands where they wrote last. -/
theorem foldl_advance (c : Cursor) (commands : List Token) :
    commands.foldl advance c =
      ⟨(lastValue (origin? c.scale) (c.x, c.y) commands).1,
        (lastValue (origin? c.scale) (c.x, c.y) commands).2,
        lastValue (font? c.scale) c.fontSize commands, c.scale⟩ := by
  induction commands generalizing c with
  | nil => rfl
  | cons t commands ih => rw [List.foldl_cons, ih, advance_eq, lastValue_cons, lastValue_cons]

/-- Interpreting draws each command with the cursor that the commands before it leave. -/
theorem interpretFrom_eq (c : Cursor) (commands : List Token) :
    interpretFrom c commands = (List.range commands.length).filterMap fun k =>
      commands[k]?.bind (draw? ((commands.take k).foldl advance c)) := by
  induction commands generalizing c with
  | nil => rfl
  | cons t commands ih =>
    rw [interpretFrom, ih, List.length_cons, List.range_succ_eq_map, List.filterMap_cons,
      List.filterMap_map]
    cases h : draw? c t <;> simp [h, Function.comp_def]

/-- What the command at a place draws, computed. -/
def drawnAt? (options : Options) (commands : List Token) (k : Nat) : Option Primitive :=
  commands[k]?.bind (draw? ((commands.take k).foldl advance
    (.start options.scale options.fontSize)))

theorem interpret_eq (options : Options) (commands : List Token) :
    interpret options commands =
      (List.range commands.length).filterMap (drawnAt? options commands) :=
  interpretFrom_eq _ _

theorem drawnAt_iff {options : Options} {commands : List Token} {k : Nat} {p : Primitive} :
    DrawnAt options commands k p ↔ drawnAt? options commands k = some p := by
  simp only [DrawnAt, drawnAt?, Option.bind_eq_some_iff, draw?_eq_some_iff, foldl_advance,
    Cursor.start, lastWritten_iff writesOrigin_iff, lastWritten_iff writesFont_iff]
  constructor
  · rintro ⟨t, x, y, size, ht, ho, rfl, h⟩
    refine ⟨t, ht, ?_⟩
    rw [ho]
    exact h
  · rintro ⟨t, ht, h⟩
    exact ⟨t, _, _, _, ht, rfl, rfl, h⟩

/-- The places at which `drawnAt?` finds something are those of the commands that draw. -/
theorem drawnAt?_isSome_iff {options : Options} {commands : List Token} {k : Nat} :
    (drawnAt? options commands k).isSome = true ↔ ∃ t, commands[k]? = some t ∧ Emits t := by
  rw [Option.isSome_iff_exists]
  constructor
  · rintro ⟨p, h⟩
    obtain ⟨t, ht, hp⟩ := Option.bind_eq_some_iff.mp h
    exact ⟨t, ht, (emits_iff _).mpr ⟨p, hp⟩⟩
  · rintro ⟨t, ht, h⟩
    obtain ⟨p, hp⟩ := (emits_iff _).mp h
    exact ⟨p, Option.bind_eq_some_iff.mpr ⟨t, ht, hp⟩⟩

theorem forall₂_filterMap {α β : Type} (f : α → Option β) (l : List α) :
    (l.filter fun a => (f a).isSome).Forall₂ (fun a b => f a = some b) (l.filterMap f) := by
  induction l with
  | nil => exact .nil
  | cons a l ih =>
    cases h : f a with
    | none => simpa [h] using ih
    | some b => simpa [h] using ih

/-- Looking back describes exactly what the interpreter draws. -/
theorem drawing_iff {options : Options} {commands : List Token} {ps : List Primitive} :
    Drawing options commands ps ↔ interpret options commands = ps := by
  have hplaces : ∀ k, k ∈ (List.range commands.length).filter
      (fun k => (drawnAt? options commands k).isSome) ↔ ∃ t, commands[k]? = some t ∧ Emits t := by
    intro k
    rw [List.mem_filter, drawnAt?_isSome_iff, List.mem_range, and_iff_right_iff_imp]
    rintro ⟨t, ht, -⟩
    exact (List.getElem?_eq_some_iff.mp ht).1
  have hsorted : ((List.range commands.length).filter
      (fun k => (drawnAt? options commands k).isSome)).Pairwise (· < ·) :=
    List.pairwise_lt_range.filter _
  have hdrawn := forall₂_filterMap (drawnAt? options commands) (List.range commands.length)
  have hrel : DrawnAt options commands = fun k p => drawnAt? options commands k = some p := by
    funext k p
    exact propext drawnAt_iff
  rw [← hrel] at hdrawn
  rw [interpret_eq]
  constructor
  · rintro ⟨places, hlt, hmem, hps⟩
    have hsame := hsorted.eq_of_mem_iff hlt fun k => (hplaces k).trans (hmem k).symm
    rw [← hsame] at hps
    refine List.right_unique_forall₂' ?_ hdrawn hps
    intro k p q hp hq
    rw [drawnAt_iff] at hp hq
    exact Option.some.inj (hp.symm.trans hq)
  · rintro rfl
    exact ⟨_, hsorted, hplaces, hdrawn⟩

/-- Everything drawn in `late` comes after a command that writes again. -/
def Unseen {α : Type} (writes : Token → α → Prop) (late : List Token) : Prop :=
  ∀ front t rest, late = front ++ t :: rest → Emits t → ∃ u ∈ front, ∃ a, writes u a

/-- A command that draws nothing and writes again hides what was written before it. -/
theorem unseen_cons {α : Type} {writes : Token → α → Prop} {u : Token} (silent : ¬ Emits u)
    (hu : ∃ a, writes u a) (late : List Token) : Unseen writes (u :: late) := by
  intro front t rest h ht
  cases front with
  | nil =>
    obtain rfl : u = t := (List.cons.inj h).1
    exact absurd ht silent
  | cons v front =>
    obtain rfl : u = v := (List.cons.inj h).1
    exact ⟨u, List.mem_cons_self, hu⟩

theorem lastValue_of_unseen {α : Type} {writes : Token → α → Prop} {written? : Token → Option α}
    (hw : ∀ t a, writes t a ↔ written? t = some a) {late : List Token} {k : Nat} {t u : Token}
    (hu : ∀ a, writes u a → Unseen writes late) (hk : late[k]? = some t) (ht : Emits t)
    (initial : α) :
    lastValue written? ((written? u).getD initial) (late.take k) =
      lastValue written? initial (late.take k) := by
  cases ha : written? u with
  | none => rfl
  | some a =>
    obtain ⟨hlt, hget⟩ := List.getElem?_eq_some_iff.mp hk
    have hsplit : late = late.take k ++ t :: late.drop (k + 1) := by
      rw [← hget, ← List.drop_eq_getElem_cons hlt, List.take_append_drop]
    obtain ⟨v, hv, b, hb⟩ := hu a ((hw u a).mpr ha) _ _ _ hsplit ht
    exact lastValue_of_mem hv (Option.isSome_iff_exists.mpr ⟨b, (hw v b).mp hb⟩) _ _

/-- A command that draws nothing and writes nothing that is seen may be left out. -/
theorem interpretFrom_advance (c : Cursor) {t : Token} {late : List Token}
    (ho : ∀ o, WritesOrigin c.scale t o → Unseen (WritesOrigin c.scale) late)
    (hf : ∀ s, WritesFont c.scale t s → Unseen (WritesFont c.scale) late) :
    interpretFrom (advance c t) late = interpretFrom c late := by
  rw [interpretFrom_eq, interpretFrom_eq]
  apply List.filterMap_congr
  intro k _
  cases hk : late[k]? with
  | none => rfl
  | some u =>
    by_cases hu : Emits u
    · have origin := lastValue_of_unseen writesOrigin_iff ho hk hu (c.x, c.y)
      have font := lastValue_of_unseen writesFont_iff hf hk hu c.fontSize
      rw [foldl_advance, foldl_advance, advance_eq]
      simp only [origin, font]
    · simp [draw?_of_not_emits hu]

theorem interpretFrom_append (c : Cursor) (early late : List Token) :
    interpretFrom c (early ++ late) =
      interpretFrom c early ++ interpretFrom (early.foldl advance c) late := by
  induction early generalizing c with
  | nil => rfl
  | cons t early ih =>
    rw [List.cons_append, interpretFrom, interpretFrom, ih, List.append_assoc, List.foldl_cons]

/-- Only the last writers count. The interpreter draws one primitive for each command that draws and
none for any other, in order, each at the origin and in the font size written last before it. So a
command that draws nothing and whose writing is not seen can be deleted. -/
theorem interpret_lastWritten (options : Options) (commands : List Token) :
    (∀ ps, Drawing options commands ps ↔ interpret options commands = ps) ∧
      ∀ early t late, commands = early ++ t :: late → ¬ Emits t →
        (∀ o, WritesOrigin options.scale t o → Unseen (WritesOrigin options.scale) late) →
        (∀ s, WritesFont options.scale t s → Unseen (WritesFont options.scale) late) →
        interpret options (early ++ late) = interpret options commands := by
  refine ⟨fun ps => drawing_iff, ?_⟩
  rintro early t late rfl ht ho hf
  have hscale : (early.foldl advance (.start options.scale options.fontSize)).scale =
      options.scale := by rw [foldl_advance]; rfl
  rw [interpret, interpret, interpretFrom_append, interpretFrom_append, interpretFrom,
    draw?_of_not_emits ht, interpretFrom_advance _ (by rwa [hscale]) (by rwa [hscale])]
  rfl

/-- Of two origins and of two fonts in a row the first is superseded. -/
theorem interpret_lastWritten_superseded :
    let first : Token := ⟨"^FO10,20".toList, 0⟩
    let second : Token := ⟨"^FO30,40".toList, 8⟩
    let large : Token := ⟨"^A0N,50,40".toList, 16⟩
    let small : Token := ⟨"^A0N,20,20".toList, 26⟩
    let field : Token := ⟨"^FDHi".toList, 36⟩
    interpret {} [second, large, small, field] =
        interpret {} [first, second, large, small, field] ∧
      interpret {} [first, second, small, field] =
        interpret {} [first, second, large, small, field] := by
  intro first second large small field
  have silent : ∀ t ∈ [first, second, large, small], ¬ Emits t := by
    simp only [List.forall_mem_cons]
    refine ⟨?_, ?_, ?_, ?_, by simp⟩ <;> (intro h; cases h <;> contradiction)
  have origin : ∃ o, WritesOrigin 0.5 second o := by
    simp only [writesOrigin_iff]
    exact Option.isSome_iff_exists.mp rfl
  have font : ∃ size, WritesFont 0.5 small size := by
    simp only [writesFont_iff]
    exact Option.isSome_iff_exists.mp rfl
  obtain ⟨-, hleave⟩ := interpret_lastWritten {} [first, second, large, small, field]
  constructor
  · refine hleave [] first _ rfl (silent _ (by simp)) ?_ ?_
    · exact fun o _ => unseen_cons (silent _ (by simp)) origin _
    · rintro size ⟨op, -⟩
      contradiction
  · refine hleave [first, second] large _ rfl (silent _ (by simp)) ?_ ?_
    · rintro o ⟨op, -⟩
      contradiction
    · exact fun size _ => unseen_cons (silent _ (by simp)) font _

end LabelFleet.Markup
