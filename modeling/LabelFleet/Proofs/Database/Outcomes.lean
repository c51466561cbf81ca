import LabelFleet.Database.Console
import LabelFleet.Proofs.Text.Trimming

/-! What the SQL console makes of a database. Each request that is not refused sends one statement
and ends in an outcome, whether the database answers with rows, with an error, too late or never;
and in a sequence of requests the database is sent these statements and no others. -/
namespace LabelFleet.Database

/-! ### Requests -/

namespace Request

/-- The name of the database, as it was given. -/
def name : Request → String
  | test name => name
  | tables name => name
  | execute database _ => database

def statement : Request → String
  | test _ => "SELECT 1 AS ok"
  | tables _ =>
    "SELECT table_schema::text, table_name::text, table_type::text " ++
      "FROM information_schema.tables " ++
      "WHERE table_type = 'BASE TABLE' " ++
      "ORDER BY table_schema, table_name"
  | execute _ statement => statement

/-- The request names no database or has no statement. Only `execute` asks for both. -/
def Lacking : Request → Prop
  | execute database statement => Text.Blank database ∨ Text.Blank statement
  | _ => False

instance : DecidablePred Lacking
  | test _ => inferInstanceAs (Decidable False)
  | tables _ => inferInstanceAs (Decidable False)
  | execute .. => inferInstanceAs (Decidable (_ ∨ _))

/-- How rows are shown: one by one in their order, and for a test with the names of their columns.
-/
def shown : Request → ResultSet → Json
  | test _, r => r.toObjects
  | _, r => .array (r.rows.map .array)

/-- What a request notes when it succeeds. -/
def note? (c : Config) : Request → Option String
  | test name => some s!"Connected to {c.database.resolve name}"
  | _ => none

/-- The statement that a request sends, if it is not refused. -/
def call (c : Config) (r : Request) : Call := ⟨c.database.resolve r.name, r.statement⟩

/-- What the database answers to the statement, and when. -/
def reply (c : Config) (client : Client) (r : Request) : Timed (Except Error ResultSet) :=
  client.query (r.call c).database (r.call c).statement

/-- All that a request sends. -/
def calls (c : Config) (r : Request) : List Call := if r.Lacking then [] else [r.call c]

def outcome (c : Config) (r : Request) : Except Error ResultSet → Outcome
  | .ok rows => { success := true, note := r.note? c, recordset := some (r.shown rows) }
  | .error e => .failed e

variable {c : Config} {client : Client} {r : Request}

theorem lacking_execute_iff {database statement : String} :
    (execute database statement).Lacking ↔ (isBlank database || isBlank statement) = true := by
  rw [Bool.or_eq_true, isBlank, isBlank, Text.isEmpty_trim_iff, Text.isEmpty_trim_iff]
  rfl

theorem answer_of_lacking (h : r.Lacking) :
    r.answer c client = ⟨.error (.badRequest "Missing database or query"), [], 0⟩ := by
  cases r with
  | test name => exact h.elim
  | tables name => exact h.elim
  | execute database statement => exact if_pos (lacking_execute_iff.mp h)

/-- Whatever the request, its statement is sent once and the answer becomes an outcome. -/
theorem answer_of_not_lacking (h : ¬ r.Lacking) : r.answer c client =
    (send c client (r.call c).database (r.call c).statement).map fun answer =>
      .ok (r.outcome c answer) := by
  cases r with
  | test name => rfl
  | tables name => rfl
  | execute database statement => exact if_neg (mt lacking_execute_iff.mpr h)

/-! ### Outcomes -/

/-- What an outcome tells of the answer of the database, which may never come or come after the time
that it is waited for. -/
structure Reports (c : Config) (r : Request) (answer : Timed (Except Error ResultSet))
    (o : Outcome) : Prop where
  success : o.success = true ↔
    ∃ d rows, answer = ⟨some d, .ok rows⟩ ∧ d ≤ c.timeouts.database.toNat
  recordset : o.recordset.isSome = true ↔ o.success = true
  error : o.error.isSome = true ↔ ¬ o.success = true
  note : o.note.isSome = true ↔ o.success = true ∧ ∃ name, r = .test name
  rows : ∀ d rows, answer = ⟨some d, .ok rows⟩ → d ≤ c.timeouts.database.toNat →
    o.recordset = some (r.shown rows) ∧ o.note = r.note? c
  failure : ∀ d e, answer = ⟨some d, .error e⟩ → d ≤ c.timeouts.database.toNat →
    o.error = some e.message
  late : (∀ d, answer.delay = some d → c.timeouts.database.toNat < d) → o.error =
    some (Error.timeout (r.call c).database (.ofMillis c.timeouts.database.toNat)).message

theorem isSome_note?_iff : (r.note? c).isSome = true ↔ ∃ name, r = .test name := by
  cases r <;> simp [note?]

theorem reports_rows {d : Nat} (hd : d ≤ c.timeouts.database.toNat) (rows : ResultSet) :
    r.Reports c ⟨some d, .ok rows⟩ (r.outcome c (.ok rows)) where
  success := ⟨fun _ => ⟨d, rows, rfl, hd⟩, fun _ => rfl⟩
  recordset := ⟨fun _ => rfl, fun _ => rfl⟩
  error := by simp [outcome]
  note := by simp [outcome, isSome_note?_iff]
  rows := by
    intro d' rows' h _
    cases h
    exact ⟨rfl, rfl⟩
  failure := by
    intro d' e h _
    cases h
  late := by
    intro h
    exact absurd (h d rfl) (Nat.not_lt.mpr hd)

/-- An error stands for anything but rows in time; it is the one that the database answers with in
time, or tells that the time has run out. -/
theorem reports_failed {answer : Timed (Except Error ResultSet)} {e : Error}
    (hrows : ∀ d rows, answer = ⟨some d, .ok rows⟩ → ¬ d ≤ c.timeouts.database.toNat)
    (hfailure : ∀ d e', answer = ⟨some d, .error e'⟩ → d ≤ c.timeouts.database.toNat → e' = e)
    (hlate : (∀ d, answer.delay = some d → c.timeouts.database.toNat < d) →
      e = .timeout (r.call c).database (.ofMillis c.timeouts.database.toNat)) :
    r.Reports c answer (r.outcome c (.error e)) where
  success := by
    constructor
    · intro h
      cases h
    · rintro ⟨d, rows, h, hd⟩
      exact absurd hd (hrows d rows h)
  recordset := by simp [outcome, Outcome.failed]
  error := by simp [outcome, Outcome.failed]
  note := by simp [outcome, Outcome.failed]
  rows := fun d rows h hd => absurd hd (hrows d rows h)
  failure := by
    intro d e' h hd
    rw [hfailure d e' h hd]
    rfl
  late := by
    intro h
    rw [hlate h]
    rfl

/-- The outcome of a request tells of the answer to its statement. -/
theorem reports_send (c : Config) (client : Client) (r : Request) :
    r.Reports c (r.reply c client)
      (r.outcome c (send c client (r.call c).database (r.call c).statement).value) := by
  have hvalue : (send c client (r.call c).database (r.call c).statement).value =
      if (r.reply c client).inTime c.timeouts.database.toNat then (r.reply c client).value
      else .error (.timeout (r.call c).database (.ofMillis c.timeouts.database.toNat)) := rfl
  rw [hvalue]
  obtain ⟨delay, value⟩ := r.reply c client
  cases delay with
  | none =>
    refine reports_failed ?_ ?_ fun _ => rfl
    · intro d rows h
      cases h
    · intro d e h
      cases h
  | some d =>
    by_cases hd : d ≤ c.timeouts.database.toNat
    · have htime : (⟨some d, value⟩ : Timed (Except Error ResultSet)).inTime
          c.timeouts.database.toNat = true := decide_eq_true hd
      rw [if_pos htime]
      cases value with
      | ok rows => exact reports_rows hd rows
      | error e =>
        refine reports_failed ?_ ?_ fun h => absurd (h d rfl) (Nat.not_lt.mpr hd)
        · intro d' rows h
          cases h
        · intro d' e' h _
          cases h
          rfl
    · have htime : ¬ (⟨some d, value⟩ : Timed (Except Error ResultSet)).inTime
          c.timeouts.database.toNat = true := mt of_decide_eq_true hd
      rw [if_neg htime]
      refine reports_failed ?_ ?_ fun _ => rfl
      · intro d' rows h
        cases h
        exact hd
      · intro d' e' h hd'
        cases h
        exact absurd hd' hd

/-! ### Answers -/

/-- How a request is answered: refused without a word to the database, or else with the outcome of
one statement, once the database has answered or the time for it has run out. Nothing but the
answers to the statements that are sent has any effect on it. -/
structure Settled (c : Config) (client : Client) (r : Request)
    (a : Answered (Except ConsoleError Outcome)) : Prop where
  refused_iff : (∃ e, a.value = .error e) ↔ r.Lacking
  refused : r.Lacking →
    a.value = .error (.badRequest "Missing database or query") ∧ a.calls = [] ∧ a.elapsed = 0
  outcome : ¬ r.Lacking → ∃ o, a.value = .ok o ∧ r.Reports c (r.reply c client) o
  sent : ¬ r.Lacking → a.calls = [r.call c]
  elapsed : ¬ r.Lacking → a.elapsed = (r.reply c client).delay.elim
    c.timeouts.database.toNat (min · c.timeouts.database.toNat)
  determined : ∀ other : Client, (∀ call ∈ a.calls,
    other.query call.database call.statement = client.query call.database call.statement) →
      r.answer c other = a

theorem settled_answer (c : Config) (client : Client) (r : Request) :
    r.Settled c client (r.answer c client) := by
  by_cases hlacking : r.Lacking
  · have hanswer : ∀ other : Client, r.answer c other = _ := fun _ => answer_of_lacking hlacking
    rw [hanswer client]
    exact {
      refused_iff := ⟨fun _ => hlacking, fun _ => ⟨_, rfl⟩⟩
      refused := fun _ => ⟨rfl, rfl, rfl⟩
      outcome := absurd hlacking
      sent := absurd hlacking
      elapsed := absurd hlacking
      determined := fun other _ => hanswer other }
  · have hanswer : ∀ other : Client, r.answer c other = _ := fun _ =>
      answer_of_not_lacking hlacking
    rw [hanswer client]
    exact {
      refused_iff := by
        constructor
        · rintro ⟨e, h⟩
          cases h
        · exact fun h => absurd h hlacking
      refused := fun h => absurd h hlacking
      outcome := fun _ => ⟨_, rfl, reports_send c client r⟩
      sent := fun _ => rfl
      elapsed := by
        intro _
        exact (r.reply c client).waited_eq c.timeouts.database.toNat
      determined := by
        intro other h
        have hquery := h (r.call c) List.mem_cons_self
        rw [hanswer other, send, hquery]
        rfl }

theorem calls_answer (c : Config) (client : Client) (r : Request) :
    (r.answer c client).calls = r.calls c := by
  have h := settled_answer c client r
  rw [calls]
  split
  · next hlacking => exact (h.refused hlacking).2.1
  · next hlacking => exact h.sent hlacking

end Request

/-! ### Sequences of requests -/

variable (c : Config) (db : List Call → Client) (log : List Call)

theorem converse_cons (r : Request) (rs : List Request) : converse c db log (r :: rs) =
    (r.answer c (db log) :: (converse c db (log ++ r.calls c) rs).1,
      (converse c db (log ++ r.calls c) rs).2) := by
  rw [converse, Request.calls_answer]

theorem log_converse (rs : List Request) :
    (converse c db log rs).2 = log ++ rs.flatMap (Request.calls c) := by
  induction rs generalizing log with
  | nil => exact (List.append_nil log).symm
  | cons r rs ih => rw [converse_cons, ih, List.flatMap_cons, List.append_assoc]

theorem length_converse (rs : List Request) : (converse c db log rs).1.length = rs.length := by
  induction rs generalizing log with
  | nil => rfl
  | cons r rs ih => rw [converse_cons, List.length_cons, ih, List.length_cons]

/-- Each request finds the database as the statements before it have left it. -/
theorem answers_converse (rs : List Request) (i : Nat) : (converse c db log rs).1[i]? =
    rs[i]?.map fun r => r.answer c (db (log ++ (rs.take i).flatMap (Request.calls c))) := by
  induction rs generalizing log i with
  | nil => rfl
  | cons r rs ih =>
    rw [converse_cons]
    cases i with
    | zero => simp
    | succ i =>
      rw [List.getElem?_cons_succ, ih, List.getElem?_cons_succ, List.take_succ_cons,
        List.flatMap_cons, List.append_assoc]

/-- In every sequence of requests, to whatever database, each request is settled by itself, and the
statements that the database has been sent are those of the requests in their order. -/
theorem requests_settled (rs : List Request) :
    (converse c db log rs).2 = log ++ rs.flatMap (Request.calls c) ∧
      (converse c db log rs).1.length = rs.length ∧
      ∀ i (r : Request), rs[i]? = some r → ∃ a, (converse c db log rs).1[i]? = some a ∧
        r.Settled c (db (log ++ (rs.take i).flatMap (Request.calls c))) a := by
  refine ⟨log_converse c db log rs, length_converse c db log rs, ?_⟩
  intro i r hr
  refine ⟨_, ?_, r.settled_answer c _⟩
  rw [answers_converse, hr]
  rfl

end LabelFleet.Database
