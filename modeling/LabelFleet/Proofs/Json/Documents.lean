import LabelFleet.Proofs.Json.Numbers
import LabelFleet.Proofs.Json.Strings
import LabelFleet.Proofs.Tables

/-! Whole values in JSON. Every value that a text has room for is read from its own text: the
members of an object in the order of their names, and a double as what a reader makes of its digits.
-/
namespace LabelFleet.Json

/-- Integers have 64 bits, and at most `depth` arrays and objects stand inside one another. -/
inductive Fits : ℕ → Json → Prop
  | null {depth : ℕ} : Fits depth .null
  | bool {depth : ℕ} (b : Bool) : Fits depth (.bool b)
  | natural {depth n : ℕ} : n < 18446744073709551616 → Fits depth (.natural n)
  | negative {depth n : ℕ} : 0 < n → n ≤ 9223372036854775808 → Fits depth (.negative n)
  | double {depth : ℕ} (x : Float) : Fits depth (.double x)
  | string {depth : ℕ} (t : String) : Fits depth (.string t)
  | array {depth : ℕ} {items : List Json} :
    (∀ v ∈ items, Fits depth v) → Fits (depth + 1) (.array items)
  | object {depth : ℕ} {members : Members} :
    (∀ m ∈ members, Fits depth m.2) → Fits (depth + 1) (.object members)

mutual

/-- What is read from the text of a value. -/
def reread : Json → Json
  | .double x => (parse (Style.json.text x)).toOption.getD .null
  | .array items => .array (rereadItems items)
  | .object members => .object (Table.ofList (rereadMembers members)).entries
  | v => v

def rereadItems : List Json → List Json
  | [] => []
  | v :: vs => v.reread :: rereadItems vs

def rereadMembers : List (String × Json) → List (String × Json)
  | [] => []
  | (n, v) :: ms => (n, v.reread) :: rereadMembers ms

end

theorem rereadMembers_eq_map (ms : Members) :
    rereadMembers ms = ms.map fun m => (m.1, m.2.reread) := by
  induction ms with
  | nil => rfl
  | cons m ms ih => rw [rereadMembers, ih, List.map_cons]

/-- The value is read from its text as another one, whatever follows the text. -/
def Reads (depth : ℕ) (v w : Json) : Prop :=
  ∀ fuel s, 2 * v.compact.length ≤ fuel → Follows s →
    readValue depth fuel (v.compact ++ s) = .ok (w, s)

/-! ### Values without others inside -/

variable {depth : ℕ} {v w : Json}

/-- The text of a value begins with a character by which it is told from a blank and from the end of
an array. -/
theorem exists_compact_eq_cons (v : Json) :
    ∃ c cs, v.compact = c :: cs ∧ isSpace c = false ∧ c ≠ ']' := by
  have hdigit {n : ℕ} : ∃ c cs, Digits.ofNat n = c :: cs ∧ isSpace c = false ∧ c ≠ ']' := by
    obtain ⟨c, cs, h⟩ := List.exists_cons_of_ne_nil (Digits.ofNat_ne_nil n)
    have hc : c.isDigit = true := Digits.isDigit_of_mem_ofNat (h ▸ List.mem_cons_self)
    refine ⟨c, cs, h, isSpace_of_isDigit hc, ?_⟩
    rintro rfl
    contradiction
  match v with
  | .null => exact ⟨'n', _, rfl, rfl, by decide⟩
  | .bool true => exact ⟨'t', _, rfl, rfl, by decide⟩
  | .bool false => exact ⟨'f', _, rfl, rfl, by decide⟩
  | .natural n => exact hdigit
  | .negative n => exact ⟨'-', _, rfl, rfl, by decide⟩
  | .double x =>
    change ∃ c cs, Style.json.text x = c :: cs ∧ _
    by_cases hx : Binary64.isFinite x = true
    · obtain ⟨n, hproper, htext, -⟩ := Style.json.exists_numeral hx
      rw [htext]
      split_ifs with hsign
      · exact ⟨'-', _, rfl, rfl, by decide⟩
      · obtain ⟨c, hhead, hc⟩ := Number.exists_head?_text hproper
        obtain ⟨cs, hcs⟩ := List.head?_eq_some_iff.mp hhead
        refine ⟨c, cs, hcs, isSpace_of_isDigit hc, ?_⟩
        rintro rfl
        contradiction
    · rw [text_of_not_isFinite hx]
      exact ⟨'n', _, rfl, rfl, by decide⟩
  | .string t => exact ⟨'"', _, rfl, rfl, by decide⟩
  | .array [] => exact ⟨'[', _, rfl, rfl, by decide⟩
  | .array (v :: vs) => exact ⟨'[', _, rfl, rfl, by decide⟩
  | .object [] => exact ⟨'\x7b', _, rfl, rfl, by decide⟩
  | .object ((n, v) :: ms) => exact ⟨'\x7b', _, rfl, rfl, by decide⟩

theorem length_compact_pos (v : Json) : 0 < v.compact.length := by
  obtain ⟨c, cs, h, -⟩ := exists_compact_eq_cons v
  rw [h]
  exact Nat.succ_pos _

theorem skipSpace_compact (v : Json) (s : List Char) :
    skipSpace (v.compact ++ s) = v.compact ++ s := by
  obtain ⟨c, cs, h, hspace, -⟩ := exists_compact_eq_cons v
  rw [h]
  exact List.dropWhile_cons_of_neg (by simp [hspace])

/-- What is read at once is read with any fuel. -/
theorem reads_of_forall_succ
    (h : ∀ fuel s, Follows s → readValue depth (fuel + 1) (v.compact ++ s) = .ok (w, s)) :
    Reads depth v w := by
  intro fuel s hfuel hs
  have hpos := length_compact_pos v
  obtain ⟨fuel, rfl⟩ : ∃ k, fuel = k + 1 := ⟨fuel - 1, by omega⟩
  exact h fuel s hs

theorem reads_string (depth : ℕ) (t : String) : Reads depth (.string t) (.string t) := by
  apply reads_of_forall_succ
  intro fuel s _
  have htext : (Json.string t).compact = stringText t := rfl
  rw [htext, stringText_append, readValue]
  change (do
    let r ← readString (t.toList.flatMap escapeChar ++ '"' :: s)
    return (Json.string r.1, r.2)) = _
  rw [readString_escaped]
  rfl

theorem reads_negative {n : ℕ} (hpos : 0 < n) (hn : n ≤ 9223372036854775808) (depth : ℕ) :
    Reads depth (.negative n) (.negative n) := by
  apply reads_of_forall_succ
  intro fuel s hs
  have hdecimal : (Numeral.decimal ⟨Digits.ofNat n, none, none⟩).digits = n := by
    simp [Numeral.decimal]
  have hread := readNumber_text true (Numeral.proper_ofNat n) hs (by rw [hdecimal]; omega)
  rw [hdecimal, if_pos ⟨rfl, rfl⟩] at hread
  simp only [Numeral.text, Option.elim_none, List.append_nil] at hread
  have hinteger : integer true n = .negative n := by
    rw [integer, if_neg (by simp), if_pos ⟨hpos, hn⟩]
  rw [hinteger] at hread
  exact hread

/-- A double that is finite is read as a finite double, and as itself if its text is short. -/
theorem exists_reads_double {x : Float} (hx : Binary64.isFinite x = true) :
    ∃ y, Binary64.isFinite y = true ∧ (Short x → y = x) ∧
      parse (Style.json.text x) = .ok (.double y) ∧ ∀ depth, Reads depth (.double x) (.double y) := by
  obtain ⟨y, hy, hshort, hread⟩ := exists_readValue_text hx
  refine ⟨y, hy, hshort, ?_, ?_⟩
  · have hparse := hread depthLimit (2 * (Style.json.text x).length + 1) [] (by rintro _ ⟨⟩)
    rw [List.append_nil] at hparse
    rw [parse, fuelFor, hparse]
    rfl
  · intro depth
    exact reads_of_forall_succ fun fuel s hs => hread depth fuel s hs

theorem reads_double (depth : ℕ) (x : Float) : Reads depth (.double x) (reread (.double x)) := by
  by_cases hx : Binary64.isFinite x = true
  · obtain ⟨y, -, -, hparse, hreads⟩ := exists_reads_double hx
    rw [reread, hparse]
    exact hreads depth
  · have htext : (Json.double x).compact = "null".toList := text_of_not_isFinite hx
    rw [reread, text_of_not_isFinite hx]
    apply reads_of_forall_succ
    intro fuel s _
    rw [htext]
    rfl

/-! ### Arrays and objects -/

theorem follows_compactItems (vs : List Json) (s : List Char) : Follows (compactItems vs ++ s) := by
  cases vs <;> rintro _ ⟨⟩ <;> decide

theorem follows_compactMembers (ms : Members) (s : List Char) :
    Follows (compactMembers ms ++ s) := by
  cases ms <;> rintro _ ⟨⟩ <;> decide

/-- Another item follows where the text of a value stands. -/
theorem nextItem_compact (v : Json) (s : List Char) :
    nextItem true (v.compact ++ s) = .ok (true, v.compact ++ s) ∧
      nextItem false (',' :: (v.compact ++ s)) = .ok (true, v.compact ++ s) := by
  have hskip := skipSpace_compact v s
  obtain ⟨c, cs, h, -, hend⟩ := exists_compact_eq_cons v
  rw [h, List.cons_append] at hskip ⊢
  have hcomma : skipSpace (',' :: c :: (cs ++ s)) = ',' :: c :: (cs ++ s) := rfl
  constructor
  · rw [nextItem, hskip]
    split
    · next heq => cases heq
    · next heq =>
      cases heq
      exact absurd rfl hend
    · next heq =>
      cases heq
      rfl
  · rw [nextItem, hcomma]
    split
    · next heq => cases heq
    · next heq => cases heq
    · next heq =>
      cases heq
      rw [if_neg Bool.false_ne_true, if_pos rfl, hskip]
      split
      · next heq => cases heq
      · next heq =>
        cases heq
        exact absurd rfl hend
      · rfl

theorem readItems_compact {vs : List Json} (h : ∀ v ∈ vs, Reads depth v v.reread) (fuel : ℕ)
    (hfuel : 2 * (compactItems vs).length ≤ fuel) (s : List Char) :
    readItems depth false fuel (compactItems vs ++ s) = .ok (rereadItems vs, s) := by
  induction vs generalizing fuel with
  | nil =>
    obtain ⟨fuel, rfl⟩ : ∃ k, fuel = k + 1 := ⟨fuel - 1, by simp [compactItems] at hfuel; omega⟩
    rfl
  | cons v vs ih =>
    have hlength : (compactItems (v :: vs)).length =
        v.compact.length + (compactItems vs).length + 1 := by
      simp [compactItems]
    obtain ⟨fuel, rfl⟩ : ∃ k, fuel = k + 1 := ⟨fuel - 1, by omega⟩
    have hvalue := h v List.mem_cons_self fuel (compactItems vs ++ s) (by omega)
      (follows_compactItems vs s)
    have hitems := ih (fun v hv => h v (List.mem_cons_of_mem _ hv)) fuel (by omega)
    have htext : compactItems (v :: vs) ++ s = ',' :: (v.compact ++ (compactItems vs ++ s)) := by
      simp [compactItems]
    rw [htext, readItems, (nextItem_compact v _).2]
    simp only [bind, Except.bind, hvalue, hitems]
    rfl

/-- The name of a member is read up to its colon. -/
theorem nextName_stringText (n : String) (s : List Char) :
    nextName true (stringText n ++ s) = .ok (some n, s) ∧
      nextName false (',' :: (stringText n ++ s)) = .ok (some n, s) := by
  have hread : (do
      let r ← readString (n.toList.flatMap escapeChar ++ '"' :: s)
      return (some r.1, r.2)) = (.ok (some n, s) : Except SyntaxError (Parsed (Option String))) := by
    rw [readString_escaped]
    rfl
  rw [stringText_append]
  exact ⟨hread, hread⟩

theorem readMembers_compact {ms : Members} (h : ∀ m ∈ ms, Reads depth m.2 m.2.reread)
    (t : Table Json) (fuel : ℕ) (hfuel : 2 * (compactMembers ms).length ≤ fuel) (s : List Char) :
    readMembers depth false t.entries fuel (compactMembers ms ++ s) =
      .ok (((rereadMembers ms).foldl (fun t e => t.insert e.1 e.2) t).entries, s) := by
  induction ms generalizing fuel t with
  | nil =>
    obtain ⟨fuel, rfl⟩ : ∃ k, fuel = k + 1 := ⟨fuel - 1, by simp [compactMembers] at hfuel; omega⟩
    rfl
  | cons m ms ih =>
    obtain ⟨n, v⟩ := m
    have hlength : (compactMembers ((n, v) :: ms)).length =
        (stringText n).length + v.compact.length + (compactMembers ms).length + 2 := by
      simp [compactMembers]
      omega
    obtain ⟨fuel, rfl⟩ : ∃ k, fuel = k + 1 := ⟨fuel - 1, by omega⟩
    have hvalue := h (n, v) List.mem_cons_self fuel (compactMembers ms ++ s) (by dsimp only; omega)
      (follows_compactMembers ms s)
    have hmembers := ih (fun m hm => h m (List.mem_cons_of_mem _ hm)) (t.insert n v.reread) fuel
      (by omega)
    have htext : compactMembers ((n, v) :: ms) ++ s =
        ',' :: (stringText n ++ ':' :: (v.compact ++ (compactMembers ms ++ s))) := by
      simp [compactMembers]
    have hcolon (s : List Char) : readColon (':' :: s) = .ok s := rfl
    rw [htext, readMembers, (nextName_stringText n _).2]
    simp only [bind, Except.bind, hcolon, hvalue]
    exact hmembers

theorem reads_array {vs : List Json} (h : ∀ v ∈ vs, Reads (depth + 1) v v.reread) :
    Reads (depth + 2) (.array vs) (reread (.array vs)) := by
  intro fuel s hfuel hs
  cases vs with
  | nil =>
    have hlength : (Json.array []).compact.length = 2 := rfl
    obtain ⟨fuel, rfl⟩ : ∃ k, fuel = k + 2 := ⟨fuel - 2, by omega⟩
    rfl
  | cons v vs =>
    have hlength : (Json.array (v :: vs)).compact.length =
        v.compact.length + (compactItems vs).length + 1 := by
      simp [compact]
    obtain ⟨fuel, rfl⟩ : ∃ k, fuel = k + 2 := ⟨fuel - 2, by omega⟩
    have hvalue := h v List.mem_cons_self fuel (compactItems vs ++ s) (by omega)
      (follows_compactItems vs s)
    have hitems := readItems_compact (fun v hv => h v (List.mem_cons_of_mem _ hv)) fuel (by omega) s
    have htext : (Json.array (v :: vs)).compact ++ s =
        '[' :: (v.compact ++ (compactItems vs ++ s)) := by
      simp [compact]
    have hopened : readItems (depth + 1) true (fuel + 1) (v.compact ++ (compactItems vs ++ s)) =
        .ok (v.reread :: rereadItems vs, s) := by
      rw [readItems, (nextItem_compact v _).1]
      simp only [bind, Except.bind, hvalue, hitems]
      rfl
    rw [htext]
    change (do
      let r ← readItems (depth + 1) true (fuel + 1) _
      return (Json.array r.1, r.2)) = _
    rw [hopened]
    rfl

theorem reads_object {ms : Members} (h : ∀ m ∈ ms, Reads (depth + 1) m.2 m.2.reread) :
    Reads (depth + 2) (.object ms) (reread (.object ms)) := by
  intro fuel s hfuel hs
  cases ms with
  | nil =>
    have hlength : (Json.object []).compact.length = 2 := rfl
    obtain ⟨fuel, rfl⟩ : ∃ k, fuel = k + 2 := ⟨fuel - 2, by omega⟩
    rfl
  | cons m ms =>
    obtain ⟨n, v⟩ := m
    have hlength : (Json.object ((n, v) :: ms)).compact.length =
        (stringText n).length + v.compact.length + (compactMembers ms).length + 2 := by
      simp [compact]
      omega
    obtain ⟨fuel, rfl⟩ : ∃ k, fuel = k + 2 := ⟨fuel - 2, by omega⟩
    have hvalue := h (n, v) List.mem_cons_self fuel (compactMembers ms ++ s) (by dsimp only; omega)
      (follows_compactMembers ms s)
    have hmembers := readMembers_compact (fun m hm => h m (List.mem_cons_of_mem _ hm))
      (Table.empty.insert n v.reread) fuel (by omega) s
    have htext : (Json.object ((n, v) :: ms)).compact ++ s =
        '\x7b' :: (stringText n ++ ':' :: (v.compact ++ (compactMembers ms ++ s))) := by
      simp [compact]
    have hcolon (s : List Char) : readColon (':' :: s) = .ok s := rfl
    have hopened : readMembers (depth + 1) true [] (fuel + 1)
        (stringText n ++ ':' :: (v.compact ++ (compactMembers ms ++ s))) =
          .ok ((Table.ofList (rereadMembers ((n, v) :: ms))).entries, s) := by
      rw [readMembers, (nextName_stringText n _).1]
      simp only [bind, Except.bind, hcolon, hvalue]
      exact hmembers
    rw [htext]
    change (do
      let r ← readMembers (depth + 1) true [] (fuel + 1) _
      return (Json.object r.1, r.2)) = _
    rw [hopened]
    rfl

/-- By the shape of the value: what stands inside is read first. -/
theorem Fits.reads (h : Fits depth v) : Reads (depth + 1) v v.reread := by
  induction h with
  | null => exact reads_of_forall_succ fun _ _ _ => rfl
  | bool b => cases b <;> exact reads_of_forall_succ fun _ _ _ => rfl
  | natural hn => exact reads_of_forall_succ fun fuel s hs => readValue_natural hn hs _ fuel
  | negative hpos hn => exact reads_negative hpos hn _
  | double x => exact reads_double _ x
  | string t => exact reads_string _ t
  | array _ ih => exact reads_array ih
  | object _ ih => exact reads_object ih

/-- A value that is not nested too deep is read from its text. -/
theorem parse_compact (h : Fits 127 v) : parse v.compact = .ok v.reread := by
  have hread := h.reads (fuelFor v.compact) [] (by rw [fuelFor]; omega) (by rintro _ ⟨⟩)
  rw [List.append_nil] at hread
  rw [parse, depthLimit, hread]
  rfl

end LabelFleet.Json
