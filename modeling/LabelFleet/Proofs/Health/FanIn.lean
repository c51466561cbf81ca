import LabelFleet.Database.Client
import LabelFleet.Health.Snapshot
import LabelFleet.Proofs.Joining
import Mathlib.Data.List.Forall2

/-! What a snapshot says of the probes. All of them run at once, and each is reported as if it had
been run alone. -/
namespace LabelFleet.Health

/-- The answer comes while it is still waited for. -/
def InTime (limit : Nat) (answer : Timed (Except String Unit)) : Prop :=
  ∃ d, answer.delay = some d ∧ d ≤ limit

/-- What is reported of a probe, told from its answer and the limit alone. -/
structure Reports (limit : Nat) (p : Probe) (r : Result) : Prop where
  kind : r.kind = p.kind
  target : r.target = p.target
  success : r.success = true ↔ InTime limit (p.check limit) ∧ (p.check limit).value = .ok ()
  error : ∀ reason, r.error = some reason ↔
    InTime limit (p.check limit) ∧ (p.check limit).value = .error reason ∨
      ¬ InTime limit (p.check limit) ∧ reason = s!"timed out after {Digits.text limit} ms"
  bounded : r.latencyMs =
    min ((p.check limit).delay.elim limit (min · limit)) (Nat.pow 2 64 - 1)
  latency : limit < Nat.pow 2 64 →
    r.latencyMs = (p.check limit).delay.elim limit (min · limit)

/-- A ping of a database that does not keep to the limit by itself. -/
def barePing (nickname database : String) (client : Database.Client) : Probe where
  kind := .database
  target := nickname
  check _ := (client.ping database).map fun answer => answer.mapError Database.Error.message

theorem inTime_iff {limit : Nat} {answer : Timed (Except String Unit)} :
    InTime limit answer ↔ answer.inTime limit = true := by
  unfold InTime Timed.inTime
  cases answer.delay with
  | none => simp
  | some d => simp

namespace Probe

theorem value_run (limit : Nat) (p : Probe) :
    (p.run limit).value = p.report ((p.check limit).waited limit)
      (if (p.check limit).inTime limit then (p.check limit).value
        else .error (timedOut limit)) := rfl

theorem report_kind (p : Probe) (spent : Nat) (outcome : Except String Unit) :
    (p.report spent outcome).kind = p.kind := by
  rcases outcome with _ | ⟨⟩ <;> rfl

theorem report_target (p : Probe) (spent : Nat) (outcome : Except String Unit) :
    (p.report spent outcome).target = p.target := by
  rcases outcome with _ | ⟨⟩ <;> rfl

theorem report_success (p : Probe) (spent : Nat) (outcome : Except String Unit) :
    (p.report spent outcome).success = true ↔ outcome = .ok () := by
  rcases outcome with _ | ⟨⟩ <;> simp [report]

theorem report_error (p : Probe) (spent : Nat) (outcome : Except String Unit) (reason : String) :
    (p.report spent outcome).error = some reason ↔ outcome = .error reason := by
  rcases outcome with _ | ⟨⟩ <;> simp [report]

theorem report_latencyMs (p : Probe) (spent : Nat) (outcome : Except String Unit) :
    (p.report spent outcome).latencyMs = min spent (Nat.pow 2 64 - 1) := by
  have h : (Duration.ofMillis spent).boundedMillis = min spent (Nat.pow 2 64 - 1) := by
    rw [Duration.boundedMillis, Duration.millis_ofMillis]
  rcases outcome with _ | ⟨⟩
  · exact h
  · exact h

/-- What a probe reports when it is run alone. -/
theorem reports_run (limit : Nat) (p : Probe) : Reports limit p (p.run limit).value := by
  have hbounded : (p.run limit).value.latencyMs =
      min ((p.check limit).delay.elim limit (min · limit)) (Nat.pow 2 64 - 1) := by
    rw [value_run, report_latencyMs, Timed.waited_eq]
  refine ⟨?_, ?_, ?_, ?_, hbounded, ?_⟩
  · rw [value_run, report_kind]
  · rw [value_run, report_target]
  · rw [value_run, report_success, inTime_iff]
    split
    · next h => simp [h]
    · next h => simp [h]
  · intro reason
    rw [value_run, report_error, inTime_iff]
    split
    · next h => simp [h]
    · next h => simp [h, eq_comm, timedOut]
  · intro hlimit
    have hwaited := (p.check limit).waited_le limit
    rw [Timed.waited_eq] at hwaited
    rw [hbounded]
    omega

/-- The limit that a database probe keeps to by itself makes no difference. -/
theorem run_database (limit : Nat) (nickname database : String) (client : Database.Client) :
    (Database.probe nickname database client).run limit =
      (barePing nickname database client).run limit := by
  have hcheck : (Database.probe nickname database client).check limit =
      ((barePing nickname database client).check limit).within limit (.error (timedOut limit)) :=
    rfl
  rw [run, run, hcheck, Timed.within_within]
  rfl

end Probe

namespace Snapshot

/-- Every probe that is run ends, so each has its result in its own place. -/
theorem take_results (limit : Nat) (probes : List Probe) :
    (take limit probes).results = probes.map fun p => (p.run limit).value := by
  have hends : ∀ t ∈ probes.map (Probe.run limit), t.delay.isSome = true := by
    intro t ht
    obtain ⟨p, -, rfl⟩ := List.mem_map.mp ht
    rfl
  change (Join.start (probes.map (Probe.run limit))).run.values = _
  rw [Join.values_run_start hends, List.map_map]
  rfl

theorem take_elapsed (limit : Nat) (probes : List Probe) :
    (take limit probes).elapsed =
      .ofMillis ((probes.map fun p => (p.check limit).waited limit).max?.getD 0) := by
  change Duration.ofMillis (Join.start (probes.map (Probe.run limit))).run.clock = _
  rw [Join.clock_run_start, List.filterMap_map]
  change Duration.ofMillis
    ((probes.filterMap (some ∘ fun p => (p.check limit).waited limit)).max?.getD 0) = _
  rw [List.filterMap_eq_map]

/-- A snapshot is over no later than its limit. -/
theorem take_elapsed_le (limit : Nat) (probes : List Probe) :
    (take limit probes).elapsed.millis ≤ limit := by
  rw [take_elapsed, Duration.millis_ofMillis]
  cases hmax : (probes.map fun p => (p.check limit).waited limit).max? with
  | none => exact Nat.zero_le limit
  | some last =>
    obtain ⟨hmem, -⟩ := List.max?_eq_some_iff.mp hmax
    obtain ⟨p, -, rfl⟩ := List.mem_map.mp hmem
    exact (p.check limit).waited_le limit

theorem take_congr {limit : Nat} {p q : Probe} (h : p.run limit = q.run limit)
    (early late : List Probe) :
    take limit (early ++ p :: late) = take limit (early ++ q :: late) := by
  rw [take, take, List.map_append, List.map_append, List.map_cons, List.map_cons, h]

/-- A snapshot waits for every probe and for none longer than the limit. Each probe is reported in
its place, in time or late; the slowest one ends the wait; the verdict is healthy just when all have
succeeded; and the limit that a database probe keeps to by itself changes nothing. -/
theorem take_fanIn (limit : Nat) (probes : List Probe) :
    probes.Forall₂ (Reports limit) (take limit probes).results ∧
      (take limit probes).elapsed = .ofMillis
        ((probes.map fun p => (p.check limit).delay.elim limit (min · limit)).max?.getD 0) ∧
      (take limit probes).elapsed.millis ≤ limit ∧
      ((take limit probes).verdict = .healthy ↔
        ∀ r ∈ (take limit probes).results, r.success = true) ∧
      ∀ nickname database client early late,
        take limit (early ++ Database.probe nickname database client :: late) =
          take limit (early ++ barePing nickname database client :: late) := by
  refine ⟨?_, ?_, take_elapsed_le limit probes, ?_, ?_⟩
  · rw [take_results, List.forall₂_map_right_iff, List.forall₂_same]
    intro p _
    exact p.reports_run limit
  · simp only [take_elapsed, Timed.waited_eq]
  · rw [verdict, Verdict.ofResults]
    split
    · next h => simpa using List.all_eq_true.mp h
    · next h => simpa using h
  · intro nickname database client early late
    exact take_congr (Probe.run_database limit nickname database client) early late

end Snapshot

end LabelFleet.Health
