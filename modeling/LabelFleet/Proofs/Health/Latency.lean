import LabelFleet.Proofs.Health.FanIn
import Mathlib.Algebra.Order.BigOperators.Group.List
import Mathlib.Algebra.Order.Round
import Mathlib.Data.Rat.Floor

/-! The latency that a snapshot shows. It is the mean of the successful probes to the nearest
millisecond, and as long as their sum fits into 64 bits no step on the way to it goes wrong. -/
namespace LabelFleet.Health.Snapshot

/-! ### Every step checked -/

/-- The sum of two numbers, if it has 64 bits. -/
def add? (a b : Nat) : Option Nat := if a + b < Nat.pow 2 64 then some (a + b) else none

/-- The quotient of two numbers, if there is one. -/
def div? (a b : Nat) : Option Nat := if b = 0 then none else some (a / b)

/-- The mean, if no step towards it overflows or divides by zero. -/
def mean? (ns : List Nat) : Option Nat := do
  let sum ← ns.foldlM add? 0
  let padded ← add? sum (ns.length / 2)
  div? padded ns.length

section

variable {ns : List Nat} {seen : Nat}

theorem toNat_ofNat_of_lt {n : Nat} (h : n < Nat.pow 2 64) : (UInt64.ofNat n).toNat = n := by
  rw [UInt64.toNat_ofNat', Nat.mod_eq_of_lt h]

theorem toNat_add_of_lt {a b : UInt64} (h : a.toNat + b.toNat < Nat.pow 2 64) :
    (a + b).toNat = a.toNat + b.toNat := by
  rw [UInt64.toNat_add, Nat.mod_eq_of_lt h]

theorem foldlM_add? (h : seen + ns.sum < Nat.pow 2 64) :
    ns.foldlM add? seen = some (seen + ns.sum) := by
  induction ns generalizing seen with
  | nil => rfl
  | cons n ns ih =>
    rw [List.sum_cons] at h ⊢
    have hstep : add? seen n = some (seen + n) := if_pos (by omega)
    rw [List.foldlM_cons, hstep, ← Nat.add_assoc]
    exact ih (by omega)

theorem toNat_foldl_add {seen : UInt64} (h : seen.toNat + ns.sum < Nat.pow 2 64) :
    (ns.foldl (fun sum n => sum + UInt64.ofNat n) seen).toNat = seen.toNat + ns.sum := by
  induction ns generalizing seen with
  | nil => rfl
  | cons n ns ih =>
    rw [List.sum_cons] at h ⊢
    have hn : (UInt64.ofNat n).toNat = n := toNat_ofNat_of_lt (by omega)
    have hstep : (seen + UInt64.ofNat n).toNat = seen.toNat + n := by
      rw [toNat_add_of_lt (by omega), hn]
    rw [List.foldl_cons, ih (by omega), hstep, Nat.add_assoc]

/-- The mean in numbers of any size. -/
theorem mean_eq (h : ns.sum + ns.length / 2 < Nat.pow 2 64) :
    mean ns = (ns.sum + ns.length / 2) / ns.length := by
  have hsum : (ns.foldl (fun sum n => sum + UInt64.ofNat n) 0).toNat = ns.sum := by
    rw [toNat_foldl_add (by rw [UInt64.toNat_zero]; omega), UInt64.toNat_zero, Nat.zero_add]
  have hhalf : (UInt64.ofNat (ns.length / 2)).toNat = ns.length / 2 := toNat_ofNat_of_lt (by omega)
  rw [mean, toNat_add_of_lt (by omega), hsum, hhalf]

theorem mean?_eq (hne : ns ≠ []) (h : ns.sum + ns.length / 2 < Nat.pow 2 64) :
    mean? ns = some (mean ns) := by
  have hsum : ns.foldlM add? 0 = some ns.sum := by
    rw [foldlM_add? (by omega), Nat.zero_add]
  have hpadded : add? ns.sum (ns.length / 2) = some (ns.sum + ns.length / 2) := if_pos h
  have hquotient : div? (ns.sum + ns.length / 2) ns.length =
      some ((ns.sum + ns.length / 2) / ns.length) := if_neg (by simpa using hne)
  rw [mean?, hsum, mean_eq h, ← hquotient]
  change (add? ns.sum (ns.length / 2)).bind (div? · ns.length) = _
  rw [hpadded]
  rfl

end

/-! ### The mean of numbers -/

/-- Half the divisor is added before dividing to go to the nearest integer, upwards from a half. -/
theorem div_eq_round {n : Nat} (hn : 0 < n) (sum : Nat) :
    (((sum + n / 2) / n : Nat) : ℤ) = round ((sum : ℚ) / n) := by
  have hnpos : (0 : ℚ) < n := by exact_mod_cast hn
  have hlow : 2 * (n * ((sum + n / 2) / n)) ≤ 2 * sum + n := by
    have := Nat.mul_div_le (sum + n / 2) n
    omega
  have hhigh : 2 * sum + n < 2 * (n * ((sum + n / 2) / n + 1)) := by
    have := Nat.lt_mul_div_succ (sum + n / 2) hn
    omega
  generalize (sum + n / 2) / n = q at hlow hhigh
  have hlow' : (2 * (n * q) : ℚ) ≤ 2 * sum + n := by exact_mod_cast hlow
  have hhigh' : (2 * sum + n : ℚ) < 2 * (n * (q + 1)) := by exact_mod_cast hhigh
  rw [round_eq, eq_comm, Int.floor_eq_iff, Int.cast_natCast,
    div_add_div _ _ hnpos.ne' two_ne_zero]
  constructor
  · rw [le_div_iff₀ (by positivity)]
    linarith
  · rw [div_lt_iff₀ (by positivity)]
    linarith

theorem le_div_of_forall_le {ns : List Nat} (hne : ns ≠ []) {low : Nat} (h : ∀ n ∈ ns, low ≤ n) :
    low ≤ (ns.sum + ns.length / 2) / ns.length := by
  have hsum : ns.length * low ≤ ns.sum := List.card_nsmul_le_sum ns low h
  rw [Nat.le_div_iff_mul_le (List.length_pos_iff.mpr hne), Nat.mul_comm]
  omega

theorem div_le_of_forall_le {ns : List Nat} (hne : ns ≠ []) {high : Nat}
    (h : ∀ n ∈ ns, n ≤ high) : (ns.sum + ns.length / 2) / ns.length ≤ high := by
  have hpos := List.length_pos_iff.mpr hne
  have hsum : ns.sum ≤ ns.length * high := List.sum_le_card_nsmul ns high h
  rw [← Nat.lt_succ_iff, Nat.div_lt_iff_lt_mul hpos, Nat.succ_mul, Nat.mul_comm high]
  omega

/-! ### The latency of a snapshot -/

variable {s t : Snapshot}

@[simp] theorem length_latencies (s : Snapshot) : s.latencies.length = s.passed := by
  rw [latencies, List.length_map, passed, List.countP_eq_length_filter]

theorem latencyMs_of_passed (h : 0 < s.passed) : s.latencyMs = mean s.latencies := by
  have hne : s.latencies.isEmpty = false := by
    rw [List.isEmpty_eq_false_iff, ← List.length_pos_iff, length_latencies]
    exact h
  rw [latencyMs, hne]
  rfl

theorem latencyMs_of_none_passed (h : s.passed = 0) :
    s.latencyMs = min s.elapsed.millis (Nat.pow 2 64 - 1) := by
  have hempty : s.latencies.isEmpty = true := by
    rw [List.isEmpty_iff, ← List.length_eq_zero_iff, length_latencies, h]
  rw [latencyMs, if_pos hempty]
  rfl

/-- Only the successful results count, in whatever order they come. -/
theorem mean_latencies_perm
    (h : (t.results.filter Result.success).Perm (s.results.filter Result.success))
    (hsum : s.latencies.sum + s.passed / 2 < Nat.pow 2 64) :
    mean t.latencies = mean s.latencies := by
  have hperm : t.latencies.Perm s.latencies := h.map Result.latencyMs
  rw [← length_latencies] at hsum
  rw [mean_eq hsum, mean_eq (by rwa [hperm.sum_eq, hperm.length_eq]), hperm.sum_eq,
    hperm.length_eq]

section

variable {limit : Nat} {probes : List Probe} {latency : Nat}

theorem exists_probe_of_mem_latencies (h : latency ∈ (take limit probes).latencies) :
    ∃ p ∈ probes, latency = min ((p.check limit).waited limit) (Nat.pow 2 64 - 1) := by
  obtain ⟨r, hr, rfl⟩ := List.mem_map.mp h
  rw [take_results, List.mem_filter, List.mem_map] at hr
  obtain ⟨⟨p, hp, rfl⟩, -⟩ := hr
  refine ⟨p, hp, ?_⟩
  rw [Timed.waited_eq]
  exact (p.reports_run limit).bounded

theorem le_elapsedMs_of_mem_latencies (h : latency ∈ (take limit probes).latencies) :
    latency ≤ (take limit probes).elapsedMs := by
  obtain ⟨p, hp, rfl⟩ := exists_probe_of_mem_latencies h
  obtain ⟨last, hlast⟩ :
      ∃ last, (probes.map fun p => (p.check limit).waited limit).max? = some last :=
    Option.isSome_iff_exists.mp (List.isSome_max?_of_mem (List.mem_map_of_mem hp))
  have hle := (List.max?_eq_some_iff.mp hlast).2 _ (List.mem_map_of_mem hp)
  rw [elapsedMs, take_elapsed, hlast, Option.getD_some, Duration.boundedMillis,
    Duration.millis_ofMillis]
  omega

theorem le_limit_of_mem_latencies (h : latency ∈ (take limit probes).latencies) :
    latency ≤ limit := by
  obtain ⟨p, -, rfl⟩ := exists_probe_of_mem_latencies h
  exact (Nat.min_le_left _ _).trans ((p.check limit).waited_le limit)

/-- The sum stays small if the limit does. -/
theorem sum_latencies_take_lt
    (h : (take limit probes).passed * limit + (take limit probes).passed < Nat.pow 2 64) :
    (take limit probes).latencies.sum + (take limit probes).passed / 2 < Nat.pow 2 64 := by
  have hsum : (take limit probes).latencies.sum ≤ (take limit probes).latencies.length * limit :=
    List.sum_le_card_nsmul _ limit fun _ => le_limit_of_mem_latencies
  rw [length_latencies] at hsum
  omega

end

/-- Where a probe has succeeded and the sum of the successful latencies is not too large, the
latency is their mean, to the nearest millisecond and from a half upwards, and no step towards it
fails. It lies among them, depends on nothing else, and is no longer than the snapshot took. Where
none has succeeded it is the time that the snapshot took. -/
theorem latencyMs_rounded_mean (s : Snapshot) :
    (s.latencies.sum + s.passed / 2 < Nat.pow 2 64 → 0 < s.passed →
      mean? s.latencies = some s.latencyMs ∧
        (s.latencyMs : ℤ) = round ((s.latencies.sum : ℚ) / s.passed) ∧
        (∀ low high, s.latencies.min? = some low → s.latencies.max? = some high →
          low ≤ s.latencyMs ∧ s.latencyMs ≤ high) ∧
        (∀ t : Snapshot,
          (t.results.filter Result.success).Perm (s.results.filter Result.success) →
            t.latencyMs = s.latencyMs) ∧
        ∀ limit probes, s = take limit probes → s.latencyMs ≤ s.elapsedMs) ∧
      (s.passed = 0 → s.latencyMs = min s.elapsed.millis (Nat.pow 2 64 - 1)) ∧
      ∀ limit probes, s = take limit probes → s.passed * limit + s.passed < Nat.pow 2 64 →
        s.latencies.sum + s.passed / 2 < Nat.pow 2 64 := by
  refine ⟨?_, latencyMs_of_none_passed, ?_⟩
  · intro hsum hpassed
    have hlength := length_latencies s
    have hne : s.latencies ≠ [] := by
      rw [← List.length_pos_iff, hlength]
      exact hpassed
    have hmean := latencyMs_of_passed hpassed
    have hexact :
        s.latencyMs = (s.latencies.sum + s.latencies.length / 2) / s.latencies.length := by
      rw [hmean, mean_eq (hlength.symm ▸ hsum)]
    refine ⟨?_, ?_, ?_, ?_, ?_⟩
    · rw [hmean, mean?_eq hne (hlength.symm ▸ hsum)]
    · rw [hexact, hlength, div_eq_round hpassed]
    · intro low high hlow hhigh
      rw [hexact]
      exact ⟨le_div_of_forall_le hne (List.min?_eq_some_iff.mp hlow).2,
        div_le_of_forall_le hne (List.max?_eq_some_iff.mp hhigh).2⟩
    · intro t hperm
      have hpassed' : 0 < t.passed := by
        rw [passed, List.countP_eq_length_filter, hperm.length_eq, ← List.countP_eq_length_filter]
        exact hpassed
      rw [latencyMs_of_passed hpassed', hmean, mean_latencies_perm hperm hsum]
    · rintro limit probes rfl
      rw [hexact]
      exact div_le_of_forall_le hne fun _ => le_elapsedMs_of_mem_latencies
  · rintro limit probes rfl
    exact sum_latencies_take_lt

/-- Two successes with a sum close to the bound; their mean is a half, which goes up. -/
theorem latencyMs_rounded_mean_largest :
    let s : Snapshot := ⟨[⟨.printer, "a", true, 18446744073709551603, none⟩,
      ⟨.database, "b", false, 7, some "connection refused"⟩, ⟨.printer, "c", true, 10, none⟩],
      .ofMillis 9⟩
    s.latencies.sum + s.passed / 2 < Nat.pow 2 64 ∧
      mean? s.latencies = some 9223372036854775807 := by
  intro s
  have hsum : s.latencies.sum + s.passed / 2 < Nat.pow 2 64 := by decide
  have hmean : s.latencyMs = 9223372036854775807 := by decide
  exact ⟨hsum, hmean ▸ ((latencyMs_rounded_mean s).1 hsum (by decide)).1⟩

end LabelFleet.Health.Snapshot
