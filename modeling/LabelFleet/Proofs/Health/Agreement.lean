import LabelFleet.Health.Survey
import LabelFleet.Proofs.Health.FanIn
import LabelFleet.Proofs.Tables

/-! What the views of a survey say of its targets. Every target has a probe, a result and an entry
of its own, so the views agree with each other, with their counts and with their verdict. -/
namespace LabelFleet

/-- The database with this name answers a ping within the limit and without a failure. -/
def Database.Client.isUp (client : Database.Client) (limit : Nat) (name : String) : Bool :=
  (client.ping name).succeeds limit

namespace Health

/-- The target answers in time and without a failure. -/
def Probe.succeeds (limit : Nat) (p : Probe) : Bool := (p.check limit).succeeds limit

/-- The dial of a printer ends within the limit and without a failure. -/
def answersDial (dial : Dial) (limit : Nat) (t : PrinterTarget) : Bool :=
  (dial t (.ofMillis limit)).succeeds limit

/-! ### The tables of the views -/

def Detailed.checks (v : Detailed) : TargetKind → Table Bool
  | .database => v.database
  | .printer => v.printers

def Report.checks (v : Report) : TargetKind → Table Bool
  | .database => v.database
  | .printer => v.printers

def Full.checks (v : Full) : TargetKind → Table Bool
  | .database => v.database
  | .printer => v.printers

/-- The number of checks in a table that have passed. -/
def passedIn (t : Table Bool) : Nat := t.entries.countP Prod.snd

/-- One entry for the nickname of the database and one for each printer that is configured; each
says whether the target itself is up. -/
structure Tells (c : Config) (client : Database.Client) (dial : Dial) (limit : Nat)
    (checks : TargetKind → Table Bool) : Prop where
  database : (checks .database).entries =
    [(c.database.nickname, client.isUp limit c.database.name)]
  printers : (checks .printer).entries = c.printers.entries.map fun e =>
    (e.1, answersDial dial limit ⟨e.1, e.2.host, e.2.port, e.2.name, e.2.model⟩)

theorem checks_detailed (s : Snapshot) : (Detailed.ofSnapshot s).checks = flags s := by
  funext k
  cases k <;> rfl

theorem checks_report (s : Snapshot) (time : Timestamp) :
    (Report.ofSnapshot s time).checks = flags s := by
  funext k
  cases k <;> rfl

theorem checks_full (s : Snapshot) : (Full.ofSnapshot s).checks = flags s := by
  funext k
  cases k <;> rfl

/-! ### Snapshots -/

/-- The results of one kind as entries of a table. -/
def Snapshot.flagList (s : Snapshot) (k : TargetKind) : List (String × Bool) :=
  (s.ofKind k).map fun r => (r.target, r.success)

theorem lookup_map_target (rs : List Result) (target : String) :
    (rs.map fun r => (r.target, r.success)).lookup target =
      (rs.find? (·.target == target)).map Result.success := by
  induction rs with
  | nil => rfl
  | cons r rs ih =>
    rw [List.map_cons, List.lookup_cons, List.find?_cons, ih, BEq.comm]
    cases r.target == target <;> rfl

/-- Where no two targets of a kind have one name, no result is lost in the table. -/
theorem entries_flags {s : Snapshot} {k : TargetKind} (h : Ascending (s.flagList k)) :
    (flags s k).entries = s.flagList k :=
  Table.entries_ofList h

theorem get?_flags {s : Snapshot} {k : TargetKind} (h : Ascending (s.flagList k))
    (target : String) : (flags s k).get? target = (s.get? k target).map Result.success := by
  rw [Table.get?, entries_flags h, Snapshot.flagList, lookup_map_target]
  rfl

namespace Snapshot

/-- Every result is of one of the two kinds. -/
theorem countP_results (s : Snapshot) (p : Result → Bool) :
    s.results.countP p = (s.ofKind .database).countP p + (s.ofKind .printer).countP p := by
  rw [ofKind, ofKind, List.countP_filter, List.countP_filter]
  induction s.results with
  | nil => rfl
  | cons r rs ih =>
    simp only [List.countP_cons, ih]
    cases r.kind <;> cases p r <;> simp <;> omega

theorem passedIn_flags {s : Snapshot} {k : TargetKind} (h : Ascending (s.flagList k)) :
    passedIn (flags s k) = (s.ofKind k).countP Result.success := by
  rw [passedIn, entries_flags h, flagList, List.countP_map]
  rfl

theorem size_flags {s : Snapshot} {k : TargetKind} (h : Ascending (s.flagList k)) :
    (flags s k).size = (s.ofKind k).length := by
  rw [Table.size, entries_flags h, flagList, List.length_map]

theorem verdict_eq_healthy_iff {s : Snapshot} :
    s.verdict = .healthy ↔ ∀ r ∈ s.results, r.success = true := by
  rw [verdict, Verdict.ofResults, ← List.all_eq_true]
  split
  · next h => simp [h]
  · next h => simp [h]

theorem verdict_eq_healthy_iff_passed {s : Snapshot} :
    s.verdict = .healthy ↔ s.passed = s.total := by
  rw [verdict_eq_healthy_iff, passed, total, List.countP_eq_length]

theorem verdict_eq_healthy_iff_flags {s : Snapshot} (h : ∀ k, Ascending (s.flagList k)) :
    s.verdict = .healthy ↔ ∀ k, ∀ e ∈ (flags s k).entries, e.2 = true := by
  rw [verdict_eq_healthy_iff]
  constructor
  · intro hall k e he
    rw [entries_flags (h k)] at he
    obtain ⟨r, hr, rfl⟩ := List.mem_map.mp he
    exact hall r (List.mem_filter.mp hr).1
  · intro hall r hr
    have hkind : r ∈ s.ofKind r.kind := List.mem_filter.mpr ⟨hr, beq_self_eq_true r.kind⟩
    refine hall r.kind (r.target, r.success) ?_
    rw [entries_flags (h r.kind)]
    exact List.mem_map.mpr ⟨r, hkind, rfl⟩

end Snapshot

/-! ### Surveys -/

theorem Probe.success_run (limit : Nat) (p : Probe) :
    (p.run limit).value.success = p.succeeds limit := by
  rw [Bool.eq_iff_iff, (p.reports_run limit).success, inTime_iff, succeeds, Timed.succeeds_eq,
    Bool.and_eq_true]
  cases (p.check limit).value <;> simp [Except.isOk, Except.toBool]

/-- A snapshot says of each probe whether it succeeds. -/
theorem Snapshot.flagList_take (limit : Nat) (ps : List Probe) (k : TargetKind) :
    (take limit ps).flagList k =
      (ps.filter (·.kind == k)).map fun p => (p.target, p.succeeds limit) := by
  have hentry : ∀ p : Probe, ((p.run limit).value.target, (p.run limit).value.success) =
      (p.target, p.succeeds limit) := by
    intro p
    rw [(p.reports_run limit).target, p.success_run]
  have hkind : ((·.kind == k) ∘ fun p : Probe => (p.run limit).value) = (·.kind == k) := by
    funext p
    exact congrArg (· == k) (p.reports_run limit).kind
  rw [flagList, ofKind, take_results, List.filter_map, hkind, List.map_map]
  exact List.map_congr_left fun p _ => hentry p

theorem succeeds_database (nickname name : String) (client : Database.Client) (limit : Nat) :
    (Database.probe nickname name client).succeeds limit = client.isUp limit name :=
  (Timed.succeeds_within ..).trans (Timed.succeeds_mapError ..)

theorem succeeds_printer (dial : Dial) (t : PrinterTarget) (limit : Nat) :
    (printerProbe dial t).succeeds limit = answersDial dial limit t :=
  Timed.succeeds_mapError ..

variable (c : Config) (client : Database.Client) (dial : Dial) (limit : UInt64)

theorem flagList_survey_database : (survey c client dial limit).flagList .database =
    [(c.database.nickname, client.isUp limit.toNat c.database.name)] := by
  have hnone : (c.printerTargets.map (printerProbe dial)).filter (·.kind == .database) = [] := by
    rw [List.filter_eq_nil_iff]
    intro p hp
    obtain ⟨t, -, rfl⟩ := List.mem_map.mp hp
    exact Bool.false_ne_true
  rw [survey, Snapshot.flagList_take, probes, List.filter_cons, hnone, ← succeeds_database]
  rfl

theorem flagList_survey_printer : (survey c client dial limit).flagList .printer =
    c.printers.entries.map fun e =>
      (e.1, answersDial dial limit.toNat ⟨e.1, e.2.host, e.2.port, e.2.name, e.2.model⟩) := by
  have hall : (c.printerTargets.map (printerProbe dial)).filter (·.kind == .printer) =
      c.printerTargets.map (printerProbe dial) := by
    rw [List.filter_eq_self]
    intro p hp
    obtain ⟨t, -, rfl⟩ := List.mem_map.mp hp
    exact beq_self_eq_true TargetKind.printer
  have hfirst : ¬ ((Database.probe c.database.nickname c.database.name client).kind ==
      TargetKind.printer) = true := Bool.false_ne_true
  rw [survey, Snapshot.flagList_take, probes, List.filter_cons, if_neg hfirst, hall,
    Config.printerTargets, List.map_map, List.map_map]
  apply List.map_congr_left
  intro e _
  exact congrArg (Prod.mk e.1) (succeeds_printer ..)

/-- No two targets of one kind have the same name. -/
theorem ascending_flagList_survey (k : TargetKind) :
    Ascending ((survey c client dial limit).flagList k) := by
  cases k with
  | database =>
    rw [flagList_survey_database]
    exact List.pairwise_singleton ..
  | printer =>
    rw [flagList_survey_printer]
    exact List.pairwise_map.mpr c.printers.ascending

theorem tells_flags_survey :
    Tells c client dial limit.toNat (flags (survey c client dial limit)) where
  database := by
    rw [entries_flags (ascending_flagList_survey ..), flagList_survey_database]
  printers := by
    rw [entries_flags (ascending_flagList_survey ..), flagList_survey_printer]

/-- One result for the database and one for each printer. -/
theorem length_results_survey :
    (survey c client dial limit).results.length = 1 + c.printers.size := by
  rw [survey, Snapshot.take_results, List.length_map, probes, List.length_cons, List.length_map,
    Config.printerTargets, List.length_map, Nat.add_comm]
  rfl

/-- Whatever comes of the probes, the views of a survey have an entry for each target and no other,
tell of it what its own probe found, and agree in their counts and verdicts. -/
theorem survey_agreement (metrics : Metrics) (now : Timestamp) :
    let s := survey c client dial limit
    let live := Live.ofSnapshot s metrics now
    let detailed := Detailed.ofSnapshot s
    let report := Report.ofSnapshot s now
    let full := Full.ofSnapshot s
    s.results.length = 1 + c.printers.size ∧
      (∀ checks ∈ [detailed.checks, report.checks, full.checks],
        Tells c client dial limit.toNat checks ∧
        (∀ k target, (checks k).get? target = (s.get? k target).map Result.success) ∧
        report.totalChecks = (checks .database).size + (checks .printer).size ∧
        report.passedChecks = passedIn (checks .database) + passedIn (checks .printer) ∧
        (report.verdict = .healthy ↔ ∀ k, ∀ e ∈ (checks k).entries, e.2 = true)) ∧
      (∀ verdict ∈ [live.verdict, detailed.verdict, full.verdict], verdict = report.verdict) ∧
      (report.verdict = .healthy ↔ report.passedChecks = report.totalChecks) := by
  intro s live detailed report full
  have hascending : ∀ k, Ascending (s.flagList k) := ascending_flagList_survey c client dial limit
  refine ⟨length_results_survey c client dial limit, ?_, ?_, s.verdict_eq_healthy_iff_passed⟩
  · intro checks hchecks
    have hflags : checks = flags s := by
      rw [checks_detailed, checks_report, checks_full] at hchecks
      simpa using hchecks
    rw [hflags]
    refine ⟨tells_flags_survey c client dial limit, fun k => get?_flags (hascending k), ?_, ?_, ?_⟩
    · rw [s.size_flags (hascending _), s.size_flags (hascending _)]
      have hcount := s.countP_results fun _ => true
      simp only [List.countP_true] at hcount
      exact hcount
    · rw [s.passedIn_flags (hascending _), s.passedIn_flags (hascending _)]
      exact s.countP_results Result.success
    · exact s.verdict_eq_healthy_iff_flags hascending
  · intro verdict hverdict
    simp only [List.mem_cons, List.not_mem_nil, or_false] at hverdict
    rcases hverdict with h | h | h
    · exact h
    · exact h
    · exact h

end Health

end LabelFleet
