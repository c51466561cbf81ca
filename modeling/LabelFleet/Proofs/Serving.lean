import LabelFleet.Fleet
import LabelFleet.Proofs.Printer.Sites
import LabelFleet.Proofs.Tables
import LabelFleet.Proofs.Text.Trimming

/-! What a fleet answers to its operators. A request is refused for a printer that is not configured
or a command that is empty, and then nothing is begun with any printer; whatever else a printer does
is part of an answer, but for a failed session in which it tells about itself. The status of the
whole fleet has one entry for each printer, with what its own dial came to. -/
namespace LabelFleet

open Printer (Attempt Site)

namespace Fleet

namespace Request

/-- The printer that is asked. -/
def id : Request → String
  | test id => id
  | presence id => id
  | testPrint id => id
  | send id _ => id
  | info id => id

/-- The request is to send a command, and there is none. -/
def Empty : Request → Prop
  | send _ command => Text.Blank command
  | _ => False

/-- The exchange with a printer that is begun for a request. -/
def attempt (p : Config.Printer) : Request → Attempt
  | test _ => .dial ⟨p.host, p.port⟩
  | presence _ => .dial ⟨p.host, p.port⟩
  | testPrint _ => .line ⟨p.host, p.port⟩ "^XA^FO50,50^ADN,36,20^FDTest Label^FS^XZ"
  | send _ command => .command ⟨p.host, p.port⟩ command
  | info _ => .interview (Address.text ⟨p.host, p.port⟩)

end Request

/-! ### The steps of a request -/

section Steps

variable {m : Type → Type} [Monad m] [LawfulMonad m] (fleet : Fleet m)

/-- What is done for a request once its printer has been found. -/
def perform (t : PrinterTarget) : Request → ExceptT ConsoleError m Answer
  | .test _ =>
    return .reachable (← fleet.link.connect t.address (fleet.limit (·.printerTest))).isOk
  | .presence _ =>
    return .presence
      (.ofReachable (← fleet.link.connect t.address (fleet.limit (·.printerTest))).isOk)
  | .testPrint _ =>
    return .printed
      (← fleet.link.sendLine t.address Printer.testLabel (fleet.limit (·.testPrint))).isOk
  | .send _ command => do
    if Text.allBlank command.toList then throw (.badRequest "Empty command")
    return .sent
      (.ofReply (← fleet.link.sendCommand t.address command (fleet.limit (·.command))))
  | .info id => do
    match ← fleet.link.interview t.address.text (.uniform (fleet.limit (·.printerTest))) with
    | .ok i => return .info i
    | .error e => throw (.printer id e)

/-- Every request looks its printer up before anything else. -/
theorem serve_eq (r : Request) :
    fleet.serve r = fleet.lookup r.id >>= fun t => fleet.perform t r := by
  cases r with
  | test id => simp [serve, test, perform, Request.id]
  | presence id => simp [serve, presence, test, perform, Request.id]
  | testPrint id => simp [serve, testPrint, perform, Request.id]
  | send id command =>
    by_cases h : Text.allBlank command.toList = true
    · simp [serve, sendCommand, perform, Request.id, h]
    · simp [serve, sendCommand, perform, Request.id, h]
  | info id =>
    simp only [serve, info, perform, Request.id, bind_assoc]
    congr 1
    funext t
    congr 1
    funext answer
    cases answer with
    | ok i => simp
    | error e => simp

variable {fleet : Fleet m} {r : Request} {p : Config.Printer}

omit [LawfulMonad m] in
theorem lookup_of_get? {id : String} (h : fleet.config.printers.get? id = some p) :
    fleet.lookup id = pure (.ofEntry id p) := by
  rw [lookup, Config.printer?, h]
  rfl

theorem serve_of_unknown (h : fleet.config.printers.get? r.id = none) :
    fleet.serve r = throw (.unknownPrinter r.id) := by
  have hlookup : fleet.lookup r.id = throw (.unknownPrinter r.id) := by
    rw [lookup, Config.printer?, h]
    rfl
  rw [serve_eq, hlookup]
  apply ExceptT.ext
  simp

theorem serve_of_get? (h : fleet.config.printers.get? r.id = some p) :
    fleet.serve r = fleet.perform (.ofEntry r.id p) r := by
  rw [serve_eq, lookup_of_get? h, pure_bind]

theorem perform_of_empty (h : r.Empty) (t : PrinterTarget) :
    fleet.perform t r = throw (.badRequest "Empty command") := by
  cases r with
  | send id command =>
    have hblank : Text.allBlank command.toList = true := Text.allBlank_iff.mpr h
    simp [perform, hblank]
  | _ => exact h.elim

end Steps

/-! ### Requests at a site -/

variable (c : Config) (s : Site) (log : List Attempt)

/-- The fleet of a configuration whose printers stand at a site. -/
def atSite : Fleet (StateM (List Attempt)) := ⟨c, s.link⟩

/-- The answer to a request, and what has been begun with printers when it comes. -/
def answer (r : Request) : Except ConsoleError Answer × List Attempt :=
  ((atSite c s).serve r).run log

/-- The status of all printers, and what has been begun with them when it comes. -/
def status : Table PrinterStatus × List Attempt := (atSite c s).statusAll log

/-- What a request comes to with its printer, if it is not refused. -/
def outcome (p : Config.Printer) : Request → Except ConsoleError Answer
  | .test _ => .ok (.reachable (s.reaches c.timeouts.printerTest.toNat log ⟨p.host, p.port⟩))
  | .presence _ =>
    .ok (.presence
      (if s.reaches c.timeouts.printerTest.toNat log ⟨p.host, p.port⟩ then .online else .offline))
  | .testPrint _ =>
    .ok (.printed (s.line log ⟨p.host, p.port⟩ "^XA^FO50,50^ADN,36,20^FDTest Label^FS^XZ"
      (.ofMillis c.timeouts.testPrint.toNat)).isOk)
  | .send _ command =>
    match s.command log ⟨p.host, p.port⟩ command (.ofMillis c.timeouts.command.toNat) with
    | .ok response => .ok (.sent ⟨true, response⟩)
    | .error _ => .ok (.sent ⟨false, none⟩)
  | .info id =>
    match s.interview log (Address.text ⟨p.host, p.port⟩)
      (.uniform (.ofMillis c.timeouts.printerTest.toNat)) with
    | .ok i => .ok (.info i)
    | .error e => .error (.printer id e)

theorem run_connect (limit : Duration) (a : Address) (f : Bool → Answer) :
    (do return f (← (atSite c s).link.connect a limit).isOk :
      ExceptT ConsoleError (StateM (List Attempt)) Answer).run log =
      (.ok (f (s.reaches limit.millis log a)), log ++ [.dial a]) := by
  change (Except.ok (f ((s.link.connect a limit) log).1.isOk), ((s.link.connect a limit) log).2) = _
  rw [s.connect_link, s.isOk_connect]

/-- The limit of a test in whole milliseconds is the configured number. -/
theorem run_test (p : Config.Printer) (f : Bool → Answer) :
    (do return f (← (atSite c s).link.connect ⟨p.host, p.port⟩
        ((atSite c s).limit (·.printerTest))).isOk :
      ExceptT ConsoleError (StateM (List Attempt)) Answer).run log =
      (.ok (f (s.reaches c.timeouts.printerTest.toNat log ⟨p.host, p.port⟩)),
        log ++ [.dial ⟨p.host, p.port⟩]) := by
  rw [run_connect, limit, Duration.millis_ofMillis]
  rfl

theorem run_perform {r : Request} (h : ¬ r.Empty) (id : String) (p : Config.Printer) :
    ((atSite c s).perform (.ofEntry id p) r).run log =
      (outcome c s log p r, log ++ [r.attempt p]) := by
  cases r with
  | test id => exact run_test c s log p .reachable
  | presence id => exact run_test c s log p fun b => .presence (.ofReachable b)
  | testPrint id => rfl
  | send id command =>
    have hblank : ¬ Text.allBlank command.toList = true := mt Text.allBlank_iff.mp h
    rw [perform, if_neg hblank, outcome]
    change (Except.ok (Answer.sent (.ofReply (s.command log ⟨p.host, p.port⟩ command
      (.ofMillis c.timeouts.command.toNat)))), _) = _
    cases s.command log ⟨p.host, p.port⟩ command (.ofMillis c.timeouts.command.toNat) with
    | ok response => rfl
    | error e => rfl
  | info id =>
    change (match s.interview log (Address.text ⟨p.host, p.port⟩)
        (.uniform (.ofMillis c.timeouts.printerTest.toNat)) with
      | .ok i => pure (.info i)
      | .error e => throw (.printer id e) : ExceptT ConsoleError (StateM (List Attempt)) Answer).run
        (log ++ [.interview (Address.text ⟨p.host, p.port⟩)]) = _
    rw [outcome]
    cases s.interview log (Address.text ⟨p.host, p.port⟩)
      (.uniform (.ofMillis c.timeouts.printerTest.toNat)) with
    | ok i => rfl
    | error e => rfl

/-- How a request is answered, and what has been begun after it. It is refused without a beginning,
or else one exchange is begun with the printer that it is for, and the request comes to an answer
unless a printer that should tell about itself fails to. -/
structure Served (r : Request) (answer : Except ConsoleError Answer) (begun : List Attempt) :
    Prop where
  unknown_iff : (∃ id, answer = .error (.unknownPrinter id)) ↔ r.id ∉ c.printers.keys
  unknown : r.id ∉ c.printers.keys → answer = .error (.unknownPrinter r.id) ∧ begun = log
  empty_iff : (∃ text, answer = .error (.badRequest text)) ↔ r.id ∈ c.printers.keys ∧ r.Empty
  empty : r.id ∈ c.printers.keys → r.Empty →
    answer = .error (.badRequest "Empty command") ∧ begun = log
  outcome : ∀ p, c.printers.get? r.id = some p → ¬ r.Empty →
    answer = outcome c s log p r ∧ begun = log ++ [r.attempt p]
  failure : ∀ e, answer = .error e → r.id ∈ c.printers.keys → ¬ r.Empty →
    r = .info r.id ∧ e.isClientError = false ∧ ∃ cause, e = .printer r.id cause
  unanswered : ∀ o, answer = .ok (.sent o) → o.success = false → o.response = none

variable {c s log} in
/-- Only a session can fail, and that is not the fault of the one who asked. -/
theorem outcome_eq_error {p : Config.Printer} {r : Request} {e : ConsoleError}
    (h : outcome c s log p r = .error e) : r = .info r.id ∧ ∃ cause, e = .printer r.id cause := by
  cases r with
  | info id =>
    rw [outcome] at h
    cases hinfo : s.interview log (Address.text ⟨p.host, p.port⟩)
      (.uniform (.ofMillis c.timeouts.printerTest.toNat)) with
    | ok i =>
      rw [hinfo] at h
      cases h
    | error cause =>
      rw [hinfo] at h
      cases h
      exact ⟨rfl, cause, rfl⟩
  | send id command =>
    rw [outcome] at h
    split at h
    · cases h
    · cases h
  | _ => cases h

variable {c s log} in
theorem outcome_eq_sent {p : Config.Printer} {r : Request} {o : CommandOutcome}
    (h : outcome c s log p r = .ok (.sent o)) : o.success = true ∨ o.response = none := by
  cases r with
  | send id command =>
    rw [outcome] at h
    split at h
    · cases h
      exact .inl rfl
    · cases h
      exact .inr rfl
  | info id =>
    rw [outcome] at h
    split at h
    · cases h
    · cases h
  | _ => cases h

section Cases

variable {c} {r : Request} {p : Config.Printer}

theorem answer_of_unknown (h : c.printers.get? r.id = none) :
    answer c s log r = (.error (.unknownPrinter r.id), log) := by
  rw [answer, serve_of_unknown h]
  rfl

theorem answer_of_empty (h : c.printers.get? r.id = some p) (hempty : r.Empty) :
    answer c s log r = (.error (.badRequest "Empty command"), log) := by
  rw [answer, serve_of_get? h, perform_of_empty hempty]
  rfl

theorem answer_of_get? (h : c.printers.get? r.id = some p) (hempty : ¬ r.Empty) :
    answer c s log r = (outcome c s log p r, log ++ [r.attempt p]) := by
  rw [answer, serve_of_get? h, run_perform c s log hempty]

end Cases

theorem served_answer (r : Request) :
    Served c s log r (answer c s log r).1 (answer c s log r).2 := by
  cases hprinter : c.printers.get? r.id with
  | none =>
    have hnot : r.id ∉ c.printers.keys := Table.get?_eq_none_iff.mp hprinter
    rw [answer_of_unknown s log hprinter]
    exact {
      unknown_iff := ⟨fun _ => hnot, fun _ => ⟨r.id, rfl⟩⟩
      unknown := fun _ => ⟨rfl, rfl⟩
      empty_iff := by simp [hnot]
      empty := fun h => absurd h hnot
      outcome := fun p h => by simp [hprinter] at h
      failure := fun _ _ h => absurd h hnot
      unanswered := fun o h => by cases h }
  | some p =>
    have hmem : r.id ∈ c.printers.keys := by
      by_contra hnot
      rw [Table.get?_eq_none_iff.mpr hnot] at hprinter
      cases hprinter
    by_cases hempty : r.Empty
    · rw [answer_of_empty s log hprinter hempty]
      exact {
        unknown_iff := by simp [hmem]
        unknown := absurd hmem
        empty_iff := ⟨fun _ => ⟨hmem, hempty⟩, fun _ => ⟨_, rfl⟩⟩
        empty := fun _ _ => ⟨rfl, rfl⟩
        outcome := fun _ _ h => absurd hempty h
        failure := fun _ _ _ h => absurd hempty h
        unanswered := fun o h => by cases h }
    · rw [answer_of_get? s log hprinter hempty]
      exact {
        unknown_iff := by
          constructor
          · rintro ⟨id, h⟩
            obtain ⟨-, cause, he⟩ := outcome_eq_error h
            cases he
          · exact absurd hmem
        unknown := absurd hmem
        empty_iff := by
          constructor
          · rintro ⟨text, h⟩
            obtain ⟨-, cause, he⟩ := outcome_eq_error h
            cases he
          · exact fun h => absurd h.2 hempty
        empty := fun _ h => absurd h hempty
        outcome := by
          intro q hq _
          rw [hprinter] at hq
          cases hq
          exact ⟨rfl, rfl⟩
        failure := by
          intro e h _ _
          obtain ⟨hinfo, cause, rfl⟩ := outcome_eq_error h
          exact ⟨hinfo, rfl, cause, rfl⟩
        unanswered := by
          intro o h hfailed
          rcases outcome_eq_sent h with hsuccess | hnone
          · rw [hfailed] at hsuccess
            cases hsuccess
          · exact hnone }

/-- A printer is online exactly if a test of it succeeds. -/
theorem online_iff (id : String) :
    (answer c s log (.presence id)).1 = .ok (.presence .online) ↔
      (answer c s log (.test id)).1 = .ok (.reachable true) := by
  cases hprinter : c.printers.get? id with
  | none =>
    rw [answer_of_unknown (r := .presence id) s log hprinter,
      answer_of_unknown (r := .test id) s log hprinter]
    simp
  | some p =>
    rw [answer_of_get? (r := .presence id) s log hprinter False.elim,
      answer_of_get? (r := .test id) s log hprinter False.elim]
    cases h : s.reaches c.timeouts.printerTest.toNat log ⟨p.host, p.port⟩ <;>
      simp [outcome, h]

/-! ### The whole fleet -/

/-- The dials of all printers in the order of their ids. -/
def dials : List Attempt := c.printers.entries.map fun e => .dial ⟨e.2.host, e.2.port⟩

/-- What the status of the whole fleet tells: of each printer its configuration and whether it was
reached by the dial that was begun for it, as a test would have found at that time. -/
structure Reported (table : Table PrinterStatus) (begun : List Attempt) : Prop where
  keys : table.keys = c.printers.keys
  entry : ∀ i id p, c.printers.entries[i]? = some (id, p) →
    table.get? id = some ⟨⟨id, p.host, p.port, p.name, p.model⟩,
      s.reaches c.timeouts.printerTest.toNat (log ++ (dials c).take i) ⟨p.host, p.port⟩⟩
  test : ∀ i id p, c.printers.entries[i]? = some (id, p) →
    (answer c s (log ++ (dials c).take i) (.test id)).1 = .ok (.reachable
      (s.reaches c.timeouts.printerTest.toNat (log ++ (dials c).take i) ⟨p.host, p.port⟩))
  begun : begun = log ++ dials c

/-- The entries of the status, each from the dial in its own place. -/
def statusList : List (String × PrinterStatus) :=
  c.printerTargets.zipWith (fun t answer => (t.id, ⟨t, answer.isOk⟩))
    ((s.connects (.ofMillis c.timeouts.printerTest.toNat) log
      (c.printerTargets.map PrinterTarget.address)).map Timed.value)

theorem dials_eq : dials c = (c.printerTargets.map PrinterTarget.address).map .dial := by
  rw [dials, Config.printerTargets, List.map_map, List.map_map]
  rfl

theorem status_eq : status c s log = (.ofList (statusList c s log), log ++ dials c) := by
  rw [statusList, ← s.values_connects, dials_eq]
  rfl

theorem getElem?_statusList (i : Nat) : (statusList c s log)[i]? =
    c.printers.entries[i]?.map fun e => (e.1, ⟨⟨e.1, e.2.host, e.2.port, e.2.name, e.2.model⟩,
      s.reaches c.timeouts.printerTest.toNat (log ++ (dials c).take i) ⟨e.2.host, e.2.port⟩⟩) := by
  rw [statusList, List.getElem?_zipWith, List.getElem?_map, s.getElem?_connects, List.map_take,
    ← dials_eq, List.getElem?_map, Config.printerTargets, List.getElem?_map]
  cases c.printers.entries[i]? with
  | none => rfl
  | some e => simp [s.isOk_connect, PrinterTarget.ofEntry, PrinterTarget.address]

theorem map_fst_statusList : (statusList c s log).map Prod.fst = c.printers.keys := by
  apply List.ext_getElem?
  intro i
  rw [List.getElem?_map, getElem?_statusList, Table.keys, List.getElem?_map, Option.map_map]
  rfl

theorem entries_status : (status c s log).1.entries = statusList c s log := by
  rw [status_eq]
  apply Table.entries_ofList
  rw [Ascending, ← List.pairwise_map (f := Prod.fst) (R := (· < ·)), map_fst_statusList]
  exact List.pairwise_map.mpr c.printers.ascending

theorem reported_status : Reported c s log (status c s log).1 (status c s log).2 where
  keys := by rw [Table.keys, entries_status, map_fst_statusList]
  entry := by
    intro i id p hentry
    rw [Table.get?_eq_some_iff, entries_status]
    apply List.mem_of_getElem? (i := i)
    rw [getElem?_statusList, hentry]
    rfl
  test := by
    intro i id p hentry
    have hmem : (id, p) ∈ c.printers.entries := List.mem_of_getElem? hentry
    rw [answer_of_get? (r := .test id) s _ (Table.get?_eq_some_iff.mpr hmem) False.elim]
    rfl
  begun := by rw [status_eq]

/-- The order in which dials end does not matter, as long as they end in time. -/
theorem status_congr {other : Site} (h : ∀ begun a,
    other.reaches c.timeouts.printerTest.toNat begun a =
      s.reaches c.timeouts.printerTest.toNat begun a) :
    status c other log = status c s log := by
  have hlist : statusList c other log = statusList c s log := by
    apply List.ext_getElem?
    intro i
    rw [getElem?_statusList, getElem?_statusList]
    simp only [h]
  rw [status_eq, status_eq, hlist]

/-- Whatever the printers at a site do, requests are refused only for what they ask, and without a
beginning; all others come to an answer, but for a failed session. The status of the whole fleet
tells of each printer whether it is reached, as a test of it would have, in whatever order the dials
end. -/
theorem requests_served :
    (∀ r, Served c s log r (answer c s log r).1 (answer c s log r).2) ∧
      (∀ id, (answer c s log (.presence id)).1 = .ok (.presence .online) ↔
        (answer c s log (.test id)).1 = .ok (.reachable true)) ∧
      Reported c s log (status c s log).1 (status c s log).2 ∧
      ∀ other : Site,
        (∀ begun a, other.reaches c.timeouts.printerTest.toNat begun a =
          s.reaches c.timeouts.printerTest.toNat begun a) →
        status c other log = status c s log :=
  ⟨served_answer c s log, online_iff c s log, reported_status c s log,
    fun _ => status_congr c s log⟩

end Fleet

end LabelFleet
