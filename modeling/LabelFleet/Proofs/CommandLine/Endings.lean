import LabelFleet.CommandLine.Run
import LabelFleet.Proofs.Health.Agreement

/-! How the program ends, beside what it prints as JSON. A document says by itself whether its
command has succeeded, and the program ends accordingly; a failure is a document of its own. -/
namespace LabelFleet

/-! ### Parts of documents -/

/-- The document itself, or a value somewhere inside it. -/
inductive Json.Within (v : Json) : Json → Prop
  | self : Within v v
  | item {items : List Json} {x : Json} : x ∈ items → Within v x → Within v (.array items)
  | member {members : List (String × Json)} {e : String × Json} : e ∈ members → Within v e.2 →
    Within v (.object members)

namespace Json

variable {b : Bool}

end Json

namespace Health

end Health

namespace CommandLine

/-! ### What documents say -/

/-- The results that a command can have. The verdict of the flat list is that of its tables. -/
inductive Fits : ConsoleCommand → Response → Prop
  | live (v : Health.Live) : Fits (.health false) (.live v)
  | detailed (v : Health.Detailed) : Fits (.health true) (.detailed v)
  | report (v : Health.Report) : Fits (.diagnose false) (.report v)
  | full (v : Health.Full) :
    (v.verdict = .healthy ↔ ∀ k, ∀ e ∈ (v.checks k).entries, e.2 = true) →
    Fits (.diagnose true) (.full v)
  | preflight (s : Health.Snapshot) : Fits .preflight (.preflight s)
  | fleet (printers : Table PrinterStatus) : Fits .fleetStatus (.fleet printers)
  | presence (id : String) (p : Presence) : Fits (.printerStatus id) (.presence id p)
  | tested (id : String) (success : Bool) : Fits (.printerTest id) (.tested id success)
  | printed (id : String) (success : Bool) : Fits (.testPrint id) (.printed id success)
  | sent (id command : String) (o : CommandOutcome) : Fits (.send id command) (.sent command o)
  | catalogue : Fits .catalogue .catalogue
  | info (id : String) (i : Printer.Info) : Fits (.info id) (.info i)
  | sql (r : Database.Request) (o : Database.Outcome) : Fits (.sql r) (.sql o)

theorem Response.status_eq (r : Response) : r.status = .success ∨ r.status = .failure := by
  have hverdict (v : Health.Verdict) :
      ExitStatus.ofVerdict v = .success ∨ ExitStatus.ofVerdict v = .failure := by
    cases v <;> decide
  have hsuccess (b : Bool) :
      ExitStatus.ofSuccess b = .success ∨ ExitStatus.ofSuccess b = .failure := by
    cases b <;> decide
  cases r with
  | live v => exact hverdict v.verdict
  | detailed v => exact hverdict v.verdict
  | report v => exact hverdict v.verdict
  | full v => exact hverdict v.verdict
  | tested id success => exact hsuccess success
  | printed id success => exact hsuccess success
  | sent command o => exact hsuccess o.success
  | sql o => exact hsuccess o.success
  | _ => exact .inl rfl

/-! ### Failures -/

theorem Failure.status_eq (f : Failure) : f.status = .badRequest ∨ f.status = .failure := by
  rw [status]
  split
  · exact .inl rfl
  · exact .inr rfl

/-! ### Runs -/

section

variable {σ : Type} (w : World (StateM σ))

variable {w}

section Steps

variable {ε α β : Type} (x : ExceptT ε (StateM σ) α) (f : α → ExceptT ε (StateM σ) β)

theorem bind_apply (s : σ) : (x >>= f) s =
    match (x s).1 with
    | .ok a => f a (x s).2
    | .error e => (.error e, (x s).2) := by
  change (match x s with | (r, s') => ExceptT.bindCont f r s') = _
  rcases x s with ⟨a | e, s'⟩ <;> rfl

variable {x f}

/-- A result comes from the last step, after a result of the step in front of it. -/
theorem exists_of_bind_eq_ok {s : σ} {b : β} (h : ((x >>= f) s).1 = .ok b) :
    ∃ a s', (x s).1 = .ok a ∧ (f a s').1 = .ok b := by
  rw [bind_apply] at h
  cases hx : (x s).1 with
  | ok a =>
    rw [hx] at h
    exact ⟨a, _, rfl, h⟩
  | error e =>
    rw [hx] at h
    cases h

end Steps

/-- A run prints the result of its command and ends as the result does. -/
theorem run_eq {args : List String} {i : Invocation} (hparse : Invocation.parse args = .ok i)
    (s : σ) : (run w args s).1 =
      match (runCommand w i.config i.command (formatOf w i s).2).1 with
      | .ok r => (r.output (formatOf w i s).1, r.status)
      | .error f => (f.output (formatOf w i s).1, f.status) := by
  have hbind {α β : Type} (x : StateM σ α) (f : α → StateM σ β) (s : σ) :
      (x >>= f) s = f (x s).1 (x s).2 := rfl
  rw [run, hparse]
  dsimp only
  rw [hbind, hbind, ExceptT.run]
  cases (runCommand w i.config i.command (formatOf w i s).2).1 with
  | ok r => rfl
  | error f => rfl

end

end CommandLine

end LabelFleet
