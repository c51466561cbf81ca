import LabelFleet.Database.Message
import LabelFleet.Proofs.Database.Outcomes
import LabelFleet.Proofs.Database.Rows
import LabelFleet.Proofs.Health.Agreement

/-! What is told of a database server. Probes and the console agree: a server is up if it returns
rows, and it is up for all of them. A server to which nothing listens is reported at once, but for
the database of the pool only when a connection has been waited for. -/
namespace LabelFleet.Database

/-! ### Messages -/

theorem Reading.foldl_take_rows (r : Reading) (rows : List (List (Option (List UInt8)))) :
    (rows.map Message.row).foldl take r = { r with rows := r.rows ++ rows } := by
  induction rows generalizing r with
  | nil => simp
  | cons row rows ih =>
    rw [List.map_cons, List.foldl_cons, ih, take, List.append_assoc]
    rfl

/-- The messages in which a server sends its rows are read as what it returns. -/
theorem Reading.result_rows (columns : List Column) (rows : List (List (Option (List UInt8)))) :
    ((.columns columns :: rows.map Message.row).foldl take {}).result =
      .ok (decodeRows columns rows) := by
  rw [List.foldl_cons, foldl_take_rows]
  rfl

/-! ### Statements and pings -/

namespace Server

/-- The server answers statements with rows. -/
def Returns (server : Server) : Prop := ∃ columns rows, server = .returns columns rows

section Clients

variable (server : Server) (pool : Pool) (database : String)

/-- Whatever is not rows is a failure, and it is never too late for rows. -/
theorem succeeds_run_iff (limit : ℕ) :
    (server.run pool database).succeeds limit = true ↔ server.Returns := by
  have herror : ∀ {delay e}, (⟨delay, .error e⟩ : Timed (Except Error ResultSet)).succeeds limit =
      true → False := by
    intro delay e h
    rw [Timed.succeeds_error] at h
    cases h
  cases server with
  | returns columns rows => exact iff_of_true rfl ⟨columns, rows, rfl⟩
  | down cause =>
    refine iff_of_false ?_ fun ⟨_, _, h⟩ => nomatch h
    rw [run]
    split
    · exact herror
    · exact herror
  | refusesLogin text => exact iff_of_false herror fun ⟨_, _, h⟩ => nomatch h
  | failsStatements text => exact iff_of_false herror fun ⟨_, _, h⟩ => nomatch h

theorem succeeds_ping (limit : ℕ) : ((server.client pool).ping database).succeeds limit =
    (server.run pool database).succeeds limit := by
  have hok : ((server.run pool database).value.map fun _ => ()).isOk =
      (server.run pool database).value.isOk := by
    cases (server.run pool database).value <;> rfl
  refine (Timed.succeeds_mapError limit pingError
    ((server.run pool database).map fun r => r.map fun _ => ())).trans ?_
  rw [Timed.succeeds, Timed.succeeds, ← hok]
  rfl

/-- An error tells of the database that was asked for, and is never that time has run out. -/
theorem error_run {e : Error} (h : (server.run pool database).value = .error e) :
    ∃ fault, e = .connect database fault ∨ e = .query database fault := by
  cases server with
  | down cause =>
    rw [run] at h
    split at h
    · exact ⟨_, .inr (Except.error.inj h).symm⟩
    · exact ⟨_, .inl (Except.error.inj h).symm⟩
  | refusesLogin text =>
    have he : pool.loginError database (.server text) = e := Except.error.inj h
    rw [Pool.loginError] at he
    split at he
    · exact ⟨_, .inr he.symm⟩
    · exact ⟨_, .inl he.symm⟩
  | failsStatements text => exact ⟨_, .inr (Except.error.inj h).symm⟩
  | returns columns rows => cases h

/-- However a ping fails, it is told that the database cannot be reached. -/
theorem error_ping {e : Error} (h : ((server.client pool).ping database).value = .error e) :
    ∃ fault, e = .connect database fault := by
  change (((server.run pool database).value.map fun _ => ()).mapError pingError) = .error e at h
  cases hrun : (server.run pool database).value with
  | ok r =>
    rw [hrun] at h
    cases h
  | error e' =>
    rw [hrun] at h
    obtain ⟨fault, rfl | rfl⟩ := server.error_run pool database hrun
    · exact ⟨fault, (Except.error.inj h).symm⟩
    · exact ⟨fault, (Except.error.inj h).symm⟩

end Clients

end Server

/-! ### What operators are told -/

section Console

variable (c : Config) (pool : Pool)

/-- A statement that is answered after `d` milliseconds. -/
theorem send_of_query {client : Client} {database statement : String} {d : ℕ}
    {answer : Except Error ResultSet} (h : client.query database statement = ⟨some d, answer⟩) :
    send c client database statement =
      ⟨if d ≤ c.timeouts.database.toNat then answer
        else .error (.timeout database (.ofMillis c.timeouts.database.toNat)),
        [⟨database, statement⟩], min d c.timeouts.database.toNat⟩ := by
  rw [send, h]
  simp only [Timed.within, Timed.inTime, decide_eq_true_eq]
  rfl

theorem Request.success_iff (server : Server) {r : Request} (h : ¬ r.Lacking) :
    (∃ o, (r.answer c (server.client pool)).value = .ok o ∧ o.success = true) ↔
      server.Returns := by
  obtain ⟨o, hvalue, hreports⟩ := (r.settled_answer c (server.client pool)).outcome h
  have hsuccess : o.success = true ↔ server.Returns := by
    rw [hreports.success, ← Timed.succeeds_iff]
    exact server.succeeds_run_iff pool (r.call c).database _
  rw [hvalue, ← hsuccess]
  constructor
  · rintro ⟨o', ho, hs⟩
    rw [Except.ok.inj ho]
    exact hs
  · exact fun hs => ⟨o, rfl, hs⟩

/-- A server is up if it returns rows, as a probe finds it and as every request that is not refused
does, and a probe that fails tells that the database cannot be reached. -/
theorem server_told (server : Server) :
    (∀ limit name, (server.client pool).isUp limit name = true ↔ server.Returns) ∧
      (∀ r : Request, ¬ r.Lacking →
        ((∃ o, (r.answer c (server.client pool)).value = .ok o ∧ o.success = true) ↔
          server.Returns)) ∧
      ∀ name e, ((server.client pool).ping name).value = .error e →
        ∃ fault, e = .connect name fault := by
  refine ⟨?_, fun r => r.success_iff c pool server, fun name e => server.error_ping pool name⟩
  intro limit name
  rw [Client.isUp, server.succeeds_ping, server.succeeds_run_iff]

/-- Where nothing listens, it is the pool that is waited for, though not longer than a statement may
take; of any other database than the pool's it is told at once. -/
theorem down_told (cause : String) {r : Request} (h : ¬ r.Lacking) :
    let database := (r.call c).database
    let limit := c.timeouts.database.toNat
    r.answer c ((Server.down cause).client pool) =
      if database = pool.database then
        ⟨.ok (.failed (if pool.acquireLimit ≤ limit then .query database .poolTimeout
          else .timeout database (.ofMillis limit))), [r.call c], min pool.acquireLimit limit⟩
      else ⟨.ok (.failed (.connect database (.network cause))), [r.call c], 0⟩ := by
  intro database limit
  have hreply : ((Server.down cause).client pool).query database (r.call c).statement =
      (Server.down cause).run pool database := rfl
  rw [Request.answer_of_not_lacking h]
  by_cases hpool : database = pool.database
  · rw [Server.run, if_pos hpool] at hreply
    rw [send_of_query c hreply, if_pos hpool]
    by_cases htime : pool.acquireLimit ≤ c.timeouts.database.toNat
    · rw [if_pos htime, if_pos htime]
      rfl
    · rw [if_neg htime, if_neg htime]
      rfl
  · rw [Server.run, if_neg hpool] at hreply
    rw [send_of_query c hreply, if_neg hpool, if_pos (Nat.zero_le _), Nat.zero_min]
    rfl

/-- If no row is shorter or longer than the list of columns and all names differ, the objects that a
test shows tell as much as the arrays that a statement shows. -/
theorem arraysOf_decodeRows {columns : List Column} {rows : List (List (Option (List UInt8)))}
    (hnames : (columns.map Column.name).Nodup) (hfull : ∀ row ∈ rows, row.length = columns.length) :
    ResultSet.arraysOf (columns.map Column.name) (decodeRows columns rows).toObjects =
      (decodeRows columns rows).toArrays := by
  cases rows with
  | nil => rfl
  | cons row rows =>
    have hlength : ∀ cells ∈ (decodeRows columns (row :: rows)).rows,
        cells.length = (decodeRows columns (row :: rows)).columns.length := by
      intro cells hcells
      obtain ⟨sent, hsent, rfl⟩ := List.mem_map.mp hcells
      have hcolumns : (decodeRows columns (row :: rows)).columns = columns.map Column.name := rfl
      rw [List.length_zipWith, hfull sent hsent, Nat.min_self, hcolumns, List.length_map]
    exact ResultSet.arraysOf_toObjects _ (fun cells hcells =>
      (ResultSet.tellsLast_rowMembers ..).tellsAll hnames (hlength cells hcells)) hlength

end Console

end LabelFleet.Database
