import LabelFleet.Markup.Arguments
import LabelFleet.Proofs.Number.Decimals

/-! The forms of arguments. Each reader accepts the texts that begin with its form and no others,
and the numbers are those of the longest runs of digits. -/
namespace LabelFleet.Markup.Arguments

/-- One or more digits. -/
def Run (ds : List Char) : Prop := ds ≠ [] ∧ ∀ c ∈ ds, c.isDigit = true

/-- No run of digits goes on here. -/
def RunEnds (rest : List Char) : Prop := ∀ c ∈ rest.head?, c.isDigit = false

/-- The double nearest to the integer with these digits. -/
def numeral (ds : List Char) : Float := Decimal.nearest false ⟨Digits.toNat ds, 0⟩

/-- The text begins with `x,y`. -/
def BeginsPair (s : List Char) (x y : Float) : Prop :=
  ∃ xs ys rest, s = xs ++ ',' :: (ys ++ rest) ∧ Run xs ∧ Run ys ∧ RunEnds rest ∧
    x = numeral xs ∧ y = numeral ys

/-- The text begins with `x,y,z`. -/
def BeginsTriple (s : List Char) (x y z : Float) : Prop :=
  ∃ xs ys zs rest, s = xs ++ ',' :: (ys ++ ',' :: (zs ++ rest)) ∧ Run xs ∧ Run ys ∧ Run zs ∧
    RunEnds rest ∧ x = numeral xs ∧ y = numeral ys ∧ z = numeral zs

/-- The text begins with a capital letter, a comma and `x`. -/
def BeginsUpperNumber (s : List Char) (x : Float) : Prop :=
  ∃ c xs rest, s = c :: ',' :: (xs ++ rest) ∧ c.isUpper = true ∧ Run xs ∧ RunEnds rest ∧
    x = numeral xs

/-- The text begins with a capital letter, a comma and `x,y`. -/
def BeginsUpperPair (s : List Char) (x y : Float) : Prop :=
  ∃ c rest, s = c :: ',' :: rest ∧ c.isUpper = true ∧ BeginsPair rest x y

theorem number_eq_some_iff {s rest : List Char} {x : Float} :
    number s = some (x, rest) ↔ ∃ ds, s = ds ++ rest ∧ Run ds ∧ RunEnds rest ∧ x = numeral ds := by
  constructor
  · intro h
    have hs := Digits.run_append s
    unfold number at h
    split at h
    · contradiction
    · next ds rest' hne hrun =>
      obtain ⟨rfl, rfl⟩ := Prod.mk.inj (Option.some.inj h)
      rw [hrun] at hs
      obtain ⟨hds, hrest⟩ := Prod.mk.inj hrun
      refine ⟨ds, hs.symm, ⟨fun h => hne h, fun c hc => ?_⟩, fun c hc => ?_, rfl⟩
      · rw [← hds] at hc
        exact List.all_eq_true.mp List.all_takeWhile c hc
      · have := List.head?_dropWhile_not Char.isDigit s
        rw [hrest, Option.mem_def.mp hc] at this
        simpa using this
  · rintro ⟨ds, rfl, hd, hr, rfl⟩
    have hrun : Digits.run (ds ++ rest) = (ds, rest) := by
      rw [Digits.run_append_stop hd.2 hr]
    obtain ⟨c, cs, rfl⟩ := List.exists_cons_of_ne_nil hd.1
    unfold number
    rw [hrun]
    rfl

theorem comma_eq_some_iff {s rest : List Char} : comma s = some rest ↔ s = ',' :: rest := by
  unfold comma
  split
  · simp
  · next h => simpa using fun hs => h rest hs

theorem upper_eq_some_iff {s rest : List Char} :
    upper s = some rest ↔ ∃ c, s = c :: rest ∧ c.isUpper = true := by
  cases s with
  | nil => simp [upper]
  | cons c s =>
    by_cases h : c.isUpper = true
    · simp [upper, h, and_assoc]
    · simp [upper, h]

theorem runEnds_comma (rest : List Char) : RunEnds (',' :: rest) := by
  intro c hc
  obtain rfl : ',' = c := by simpa using hc
  rfl

/-- A number with a comma behind it is read up to the comma. -/
theorem number_comma {s rest : List Char} {x : Float} :
    number s = some (x, ',' :: rest) ↔ ∃ xs, s = xs ++ ',' :: rest ∧ Run xs ∧ x = numeral xs := by
  simp only [number_eq_some_iff, runEnds_comma, true_and]

theorem pair_eq_some_iff {s : List Char} {x y : Float} :
    pair s = some (x, y) ↔ BeginsPair s x y := by
  constructor
  · intro h
    simp only [pair, Option.bind_eq_bind, Option.bind_eq_some_iff, Prod.exists, comma_eq_some_iff,
      Option.pure_def, Option.some.injEq, Prod.mk.injEq] at h
    obtain ⟨_, _, hx, _, rfl, _, rest, hy, rfl, rfl⟩ := h
    obtain ⟨xs, rfl, hxs, ex⟩ := number_comma.mp hx
    obtain ⟨ys, rfl, hys, hrest, ey⟩ := number_eq_some_iff.mp hy
    exact ⟨xs, ys, rest, rfl, hxs, hys, hrest, ex, ey⟩
  · rintro ⟨xs, ys, rest, rfl, hxs, hys, hrest, rfl, rfl⟩
    have hx : number (xs ++ ',' :: (ys ++ rest)) = some (numeral xs, ',' :: (ys ++ rest)) :=
      number_comma.mpr ⟨xs, rfl, hxs, rfl⟩
    have hy := number_eq_some_iff.mpr ⟨ys, rfl, hys, hrest, rfl⟩
    simp [pair, hx, comma, hy]

theorem triple_eq_some_iff {s : List Char} {x y z : Float} :
    triple s = some (x, y, z) ↔ BeginsTriple s x y z := by
  constructor
  · intro h
    simp only [triple, Option.bind_eq_bind, Option.bind_eq_some_iff, Prod.exists, comma_eq_some_iff,
      Option.pure_def, Option.some.injEq, Prod.mk.injEq] at h
    obtain ⟨_, _, hx, _, rfl, _, _, hy, _, rfl, _, rest, hz, rfl, rfl, rfl⟩ := h
    obtain ⟨xs, rfl, hxs, ex⟩ := number_comma.mp hx
    obtain ⟨ys, rfl, hys, ey⟩ := number_comma.mp hy
    obtain ⟨zs, rfl, hzs, hrest, ez⟩ := number_eq_some_iff.mp hz
    exact ⟨xs, ys, zs, rest, rfl, hxs, hys, hzs, hrest, ex, ey, ez⟩
  · rintro ⟨xs, ys, zs, rest, rfl, hxs, hys, hzs, hrest, rfl, rfl, rfl⟩
    have hy : number (ys ++ ',' :: (zs ++ rest)) = some (numeral ys, ',' :: (zs ++ rest)) :=
      number_comma.mpr ⟨ys, rfl, hys, rfl⟩
    have hx : number (xs ++ ',' :: (ys ++ ',' :: (zs ++ rest))) =
        some (numeral xs, ',' :: (ys ++ ',' :: (zs ++ rest))) :=
      number_comma.mpr ⟨xs, rfl, hxs, rfl⟩
    have hz := number_eq_some_iff.mpr ⟨zs, rfl, hzs, hrest, rfl⟩
    simp [triple, hx, hy, comma, hz]

theorem upperNumber_eq_some_iff {s : List Char} {x : Float} :
    upperNumber s = some x ↔ BeginsUpperNumber s x := by
  constructor
  · intro h
    simp only [upperNumber, Option.bind_eq_bind, Option.bind_eq_some_iff, Prod.exists,
      comma_eq_some_iff, upper_eq_some_iff, Option.pure_def, Option.some.injEq] at h
    obtain ⟨_, ⟨c, rfl, hc⟩, _, rfl, _, rest, hx, rfl⟩ := h
    obtain ⟨xs, rfl, hxs, hrest, ex⟩ := number_eq_some_iff.mp hx
    exact ⟨c, xs, rest, rfl, hc, hxs, hrest, ex⟩
  · rintro ⟨c, xs, rest, rfl, hc, hxs, hrest, rfl⟩
    have hx := number_eq_some_iff.mpr ⟨xs, rfl, hxs, hrest, rfl⟩
    simp [upperNumber, upper, hc, comma, hx]

theorem upperPair_eq_some_iff {s : List Char} {x y : Float} :
    upperPair s = some (x, y) ↔ BeginsUpperPair s x y := by
  constructor
  · intro h
    simp only [upperPair, Option.bind_eq_bind, Option.bind_eq_some_iff, comma_eq_some_iff,
      upper_eq_some_iff, pair_eq_some_iff] at h
    obtain ⟨_, ⟨c, rfl, hc⟩, rest, rfl, hxy⟩ := h
    exact ⟨c, rest, rfl, hc, hxy⟩
  · rintro ⟨c, rest, rfl, hc, hxy⟩
    simp [upperPair, upper, hc, comma, pair_eq_some_iff.mpr hxy]

/-- A run of digits goes on to a place where it ends. -/
theorem Run.exists_runEnds {ds : List Char} (h : Run ds) (rest : List Char) :
    ∃ ds' rest', ds ++ rest = ds' ++ rest' ∧ Run ds' ∧ RunEnds rest' := by
  refine ⟨ds ++ rest.takeWhile Char.isDigit, rest.dropWhile Char.isDigit, ?_, ⟨?_, ?_⟩, ?_⟩
  · rw [List.append_assoc, List.takeWhile_append_dropWhile]
  · simp [h.1]
  · intro c hc
    rcases List.mem_append.mp hc with hc | hc
    · exact h.2 c hc
    · exact List.all_eq_true.mp List.all_takeWhile c hc
  · intro c hc
    have hhead := List.head?_dropWhile_not Char.isDigit rest
    rw [Option.mem_def.mp hc] at hhead
    simpa using hhead

/-- A text begins with two numbers if it begins with two runs of digits that a comma divides; the
last one may go on. -/
theorem exists_beginsPair_iff {s : List Char} : (∃ x y, BeginsPair s x y) ↔
    ∃ xs ys, Run xs ∧ Run ys ∧ xs ++ ',' :: ys <+: s := by
  constructor
  · rintro ⟨_, _, xs, ys, rest, rfl, hxs, hys, -⟩
    exact ⟨xs, ys, hxs, hys, rest, by simp⟩
  · rintro ⟨xs, ys, hxs, hys, rest, rfl⟩
    obtain ⟨ys', rest', heq, hys', hrest'⟩ := hys.exists_runEnds rest
    exact ⟨_, _, xs, ys', rest', by simp [heq], hxs, hys', hrest', rfl, rfl⟩

/-- A text begins with three numbers if it begins with three runs of digits that commas divide; the
last one may go on. -/
theorem exists_beginsTriple_iff {s : List Char} : (∃ x y z, BeginsTriple s x y z) ↔
    ∃ xs ys zs, Run xs ∧ Run ys ∧ Run zs ∧ xs ++ ',' :: (ys ++ ',' :: zs) <+: s := by
  constructor
  · rintro ⟨_, _, _, xs, ys, zs, rest, rfl, hxs, hys, hzs, -⟩
    exact ⟨xs, ys, zs, hxs, hys, hzs, rest, by simp⟩
  · rintro ⟨xs, ys, zs, hxs, hys, hzs, rest, rfl⟩
    obtain ⟨zs', rest', heq, hzs', hrest'⟩ := hzs.exists_runEnds rest
    exact ⟨_, _, _, xs, ys, zs', rest', by simp [heq], hxs, hys, hzs', hrest', rfl, rfl, rfl⟩

theorem exists_beginsUpperNumber_iff {s : List Char} : (∃ x, BeginsUpperNumber s x) ↔
    ∃ c xs, c.isUpper = true ∧ Run xs ∧ c :: ',' :: xs <+: s := by
  constructor
  · rintro ⟨_, c, xs, rest, rfl, hc, hxs, -⟩
    exact ⟨c, xs, hc, hxs, rest, by simp⟩
  · rintro ⟨c, xs, hc, hxs, rest, rfl⟩
    obtain ⟨xs', rest', heq, hxs', hrest'⟩ := hxs.exists_runEnds rest
    exact ⟨_, c, xs', rest', by simp [heq], hc, hxs', hrest', rfl⟩

theorem exists_beginsUpperPair_iff {s : List Char} : (∃ x y, BeginsUpperPair s x y) ↔
    ∃ c xs ys, c.isUpper = true ∧ Run xs ∧ Run ys ∧ c :: ',' :: (xs ++ ',' :: ys) <+: s := by
  constructor
  · rintro ⟨x, y, c, rest, rfl, hc, hpair⟩
    obtain ⟨xs, ys, hxs, hys, hprefix⟩ := exists_beginsPair_iff.mp ⟨x, y, hpair⟩
    exact ⟨c, xs, ys, hc, hxs, hys, by simpa using hprefix⟩
  · rintro ⟨c, xs, ys, hc, hxs, hys, rest, rfl⟩
    obtain ⟨x, y, hpair⟩ := exists_beginsPair_iff.mpr
      ⟨xs, ys, hxs, hys, List.prefix_append (xs ++ ',' :: ys) rest⟩
    exact ⟨x, y, c, _, by simp, hc, hpair⟩

theorem upperNumber_eq_none_iff {s : List Char} :
    upperNumber s = none ↔ ∀ x, ¬ BeginsUpperNumber s x := by
  rw [Option.eq_none_iff_forall_ne_some]
  simp only [ne_eq, upperNumber_eq_some_iff]

theorem upperPair_eq_none_iff {s : List Char} :
    upperPair s = none ↔ ∀ x y, ¬ BeginsUpperPair s x y := by
  rw [Option.eq_none_iff_forall_ne_some]
  simp only [ne_eq, Prod.forall, upperPair_eq_some_iff]

end LabelFleet.Markup.Arguments
