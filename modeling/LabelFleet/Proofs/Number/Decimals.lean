import LabelFleet.Number.Digits
import LabelFleet.Proofs.Text.Searching
import LabelFleet.Proofs.Text.Trimming
import Mathlib.Data.List.Induction

/-! Decimal digits of natural numbers are read back as the number, and a number has only one list of
digits that does not begin with a zero. -/
namespace LabelFleet.Digits

theorem ofNat_ne_nil (n : Nat) : ofNat n ≠ [] := by
  rw [ofNat]
  split <;> simp

theorem ofNat_of_lt {n : Nat} (h : n < 10) : ofNat n = [digit n] := by
  rw [ofNat, if_pos h]

theorem ofNat_concat {n d : Nat} (hn : 0 < n) (hd : d < 10) :
    ofNat (10 * n + d) = ofNat n ++ [digit d] := by
  have hdiv : (10 * n + d) / 10 = n := by omega
  have hdigit : digit (10 * n + d) = digit d := by
    rw [digit, digit]
    congr 2
    omega
  rw [ofNat, if_neg (by omega), hdiv, hdigit]

theorem toNat_concat (ds : List Char) (d : Char) : toNat (ds ++ [d]) = 10 * toNat ds + value d := by
  rw [toNat, List.foldl_append]
  rfl

theorem value_lt {c : Char} (h : c.isDigit = true) : value c < 10 := by
  rw [Text.isDigit_iff] at h
  rw [value]
  omega

theorem digit_value {c : Char} (h : c.isDigit = true) : digit (value c) = c := by
  have hlt := value_lt h
  rw [Text.isDigit_iff] at h
  have hcode : 48 + value c % 10 = c.toNat := by
    rw [Nat.mod_eq_of_lt hlt, value]
    omega
  rw [digit, hcode, Char.ofNat_toNat]

theorem head?_ofNat {n : Nat} (h : 0 < n) : (ofNat n).head? ≠ some '0' := by
  fun_induction ofNat n with
  | case1 n hn =>
    have all : ∀ n < 10, 0 < n → digit n ≠ '0' := by decide
    simpa using all n hn h
  | case2 n hn ih =>
    obtain ⟨c, ds, hcons⟩ := List.exists_cons_of_ne_nil (ofNat_ne_nil (n / 10))
    have hfront := ih (by omega)
    rw [hcons] at hfront ⊢
    exact hfront

/-- Digits that do not begin with a zero are those of their number. -/
theorem ofNat_toNat {ds : List Char} (hne : ds ≠ []) (hds : ∀ c ∈ ds, c.isDigit = true)
    (hzero : ds.head? = some '0' → ds.length = 1) : ofNat (toNat ds) = ds := by
  -- `ofNat` adds the last digit last, so the induction is on the front.
  induction ds using List.reverseRecOn with
  | nil => contradiction
  | append_singleton ds d ih =>
    have hd : d.isDigit = true := hds d (List.mem_append_right _ List.mem_cons_self)
    rw [toNat_concat]
    cases ds with
    | nil =>
      have hvalue : 10 * toNat [] + value d = value d := by simp [toNat]
      rw [hvalue, ofNat_of_lt (value_lt hd), digit_value hd]
      rfl
    | cons c ds =>
      have hc : c ≠ '0' := by
        rintro rfl
        have := hzero rfl
        simp at this
      have hfront := ih (List.cons_ne_nil c ds) (fun e he => hds e (List.mem_append_left _ he))
        (fun h => absurd (Option.some.inj h) hc)
      have hpos : 0 < toNat (c :: ds) := by
        rcases Nat.eq_zero_or_pos (toNat (c :: ds)) with h | h
        · rw [h, ofNat_of_lt (by decide)] at hfront
          exact absurd (List.cons.inj hfront).1.symm hc
        · exact h
      rw [ofNat_concat hpos (value_lt hd), hfront, digit_value hd]

theorem length_ofNat_le {n k : Nat} (h : n < Nat.pow 10 (k + 1)) : (ofNat n).length ≤ k + 1 := by
  induction k generalizing n with
  | zero =>
    rw [ofNat_of_lt h]
    exact Nat.le_refl 1
  | succ k ih =>
    rw [ofNat]
    split
    · simp
    · have hfront : (ofNat (n / 10)).length ≤ k + 1 :=
        ih ((Nat.div_lt_iff_lt_mul (by decide)).mpr h)
      rw [List.length_append, List.length_singleton]
      omega

theorem not_mem_ofNat {c : Char} (h : c.isDigit = false) (n : Nat) : c ∉ ofNat n := by
  intro hmem
  rw [isDigit_of_mem_ofNat hmem] at h
  contradiction

theorem unpadded_ofNat (n : Nat) : Text.Unpadded (ofNat n) := by
  apply Text.unpadded_of_forall
  intro c hc
  exact Text.not_isBlank_of_isAlphanum (Text.isAlphanum_iff.mpr (.inr (isDigit_of_mem_ofNat hc)))

/-! ### Reading -/

/-- The run of digits in front of something that does not begin with one. -/
theorem run_append_stop {ds rest : List Char} (hds : ∀ c ∈ ds, c.isDigit = true)
    (hrest : ∀ c ∈ rest.head?, c.isDigit = false) : run (ds ++ rest) = (ds, rest) := by
  rw [run, Text.takeWhile_append_stop hds hrest, Text.dropWhile_append_stop hds hrest]

theorem run_ofNat_append (n : Nat) {rest : List Char} (h : ∀ c ∈ rest.head?, c.isDigit = false) :
    run (ofNat n ++ rest) = (ofNat n, rest) :=
  run_append_stop (fun _ hc => isDigit_of_mem_ofNat hc) h

theorem le_foldl (ds : List Char) (seen : Nat) :
    seen ≤ ds.foldl (fun a c => 10 * a + value c) seen := by
  induction ds generalizing seen with
  | nil => exact Nat.le_refl seen
  | cons d ds ih =>
    have := ih (10 * seen + value d)
    rw [List.foldl_cons]
    omega

/-- Digits are read to their end if their number stays below the bound. -/
theorem readFrom_eq_ok {bound seen : Nat} {ds : List Char} (hds : ∀ c ∈ ds, c.isDigit = true)
    (h : ds.foldl (fun a c => 10 * a + value c) seen < bound) :
    readFrom bound seen ds = .ok (ds.foldl (fun a c => 10 * a + value c) seen) := by
  induction ds generalizing seen with
  | nil => rfl
  | cons d ds ih =>
    rw [List.foldl_cons] at h ⊢
    have hstep := Nat.lt_of_le_of_lt (le_foldl ds _) h
    rw [readFrom, if_pos (hds d List.mem_cons_self), if_pos hstep,
      ih (fun c hc => hds c (List.mem_cons_of_mem d hc)) h]

theorem readFrom_eq_ok_iff {bound seen n : Nat} {ds : List Char} (hseen : seen < bound) :
    readFrom bound seen ds = .ok n ↔ (∀ c ∈ ds, c.isDigit = true) ∧
      ds.foldl (fun a c => 10 * a + value c) seen = n ∧ n < bound := by
  constructor
  · intro h
    induction ds generalizing seen with
    | nil =>
      obtain rfl := Except.ok.inj h
      exact ⟨by simp, rfl, hseen⟩
    | cons d ds ih =>
      rw [readFrom] at h
      split_ifs at h with hd hstep
      obtain ⟨hds, hn, hbound⟩ := ih hstep h
      exact ⟨List.forall_mem_cons.mpr ⟨hd, hds⟩, hn, hbound⟩
  · rintro ⟨hds, rfl, hbound⟩
    exact readFrom_eq_ok hds hbound

/-- Digits, at least one, that denote a number; zeros may stand in front. -/
structure Denotes (ds : List Char) (n : Nat) : Prop where
  ne_nil : ds ≠ []
  isDigit : ∀ c ∈ ds, c.isDigit = true
  toNat_eq : toNat ds = n

theorem denotes_ofNat (n : Nat) : Denotes (ofNat n) n :=
  ⟨ofNat_ne_nil n, fun _ hc => isDigit_of_mem_ofNat hc, toNat_ofNat n⟩

/-- What is read is digits, with a plus sign in front or without, and a number that fits. -/
theorem read_eq_ok_iff {bound n : Nat} {s : List Char} :
    read bound s = .ok n ↔ ∃ ds, (s = ds ∨ s = '+' :: ds) ∧ Denotes ds n ∧ n < bound := by
  have hfrom {ds : List Char} (hne : ds ≠ []) :
      readFrom bound 0 ds = .ok n ↔ Denotes ds n ∧ n < bound := by
    rcases Nat.eq_zero_or_pos bound with rfl | hbound
    · cases ds with
      | nil => contradiction
      | cons d ds =>
        rw [readFrom]
        split_ifs <;> simp_all
    · rw [readFrom_eq_ok_iff hbound]
      exact ⟨fun ⟨hds, hn, hlt⟩ => ⟨⟨hne, hds, hn⟩, hlt⟩, fun ⟨h, hlt⟩ => ⟨h.isDigit, h.toNat_eq, hlt⟩⟩
  have hplus {ds : List Char} : ¬ Denotes ('+' :: ds) n := by
    intro h
    exact absurd (h.isDigit '+' List.mem_cons_self) (by decide)
  unfold read
  split
  · simp only [reduceCtorEq, false_iff, not_exists, not_and]
    rintro ds (rfl | h) hds
    · exact absurd rfl hds.ne_nil
    · contradiction
  · next s =>
    have hread : (if s.isEmpty then .error .invalidDigit else readFrom bound 0 s) = .ok n ↔
        Denotes s n ∧ n < bound := by
      cases s with
      | nil => simpa using fun h : Denotes [] n => absurd rfl h.ne_nil
      | cons c s => exact hfrom (List.cons_ne_nil c s)
    rw [hread]
    constructor
    · exact fun h => ⟨s, .inr rfl, h⟩
    · rintro ⟨ds, rfl | h, hds⟩
      · exact absurd hds.1 hplus
      · rwa [(List.cons.inj h).2]
  · next hnil hsign =>
    rw [hfrom fun h => hnil h]
    constructor
    · exact fun h => ⟨s, .inl rfl, h⟩
    · rintro ⟨ds, rfl | rfl, hds⟩
      · exact hds
      · exact absurd rfl (hsign ds)

/-- Nothing but digits is read as a whole number. -/
theorem read_ne_ok {bound n : Nat} {s : List Char} (h : ∃ c ∈ s, c.isDigit = false ∧ c ≠ '+') :
    read bound s ≠ .ok n := by
  intro hread
  obtain ⟨c, hc, hdigit, hplus⟩ := h
  obtain ⟨ds, hs, hds, -⟩ := read_eq_ok_iff.mp hread
  have hmem : c ∈ ds := by
    rcases hs with rfl | rfl
    · exact hc
    · exact (List.mem_cons.mp hc).resolve_left hplus
  rw [hds.isDigit c hmem] at hdigit
  contradiction

theorem read_ofNat {bound n : Nat} (h : n < bound) : read bound (ofNat n) = .ok n := by
  have hds : ∀ c ∈ ofNat n, c.isDigit = true := fun c hc => isDigit_of_mem_ofNat hc
  have hn : (ofNat n).foldl (fun a c => 10 * a + value c) 0 = n := toNat_ofNat n
  have hread : readFrom bound 0 (ofNat n) = .ok n := by
    rw [readFrom_eq_ok hds (hn.symm ▸ h), hn]
  obtain ⟨c, ds, hcons⟩ := List.exists_cons_of_ne_nil (ofNat_ne_nil n)
  rw [hcons] at hds hread ⊢
  have hplus : c ≠ '+' := by
    rintro rfl
    exact absurd (hds '+' List.mem_cons_self) (by decide)
  rw [read]
  · exact hread
  · simp
  · intro s hs
    exact hplus (List.cons.inj hs).1

end LabelFleet.Digits
