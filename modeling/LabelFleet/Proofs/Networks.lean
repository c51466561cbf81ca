import LabelFleet.Printer.Network
import LabelFleet.Proofs.Serving

/-! A fleet whose printers stand in a network. The network is a site at which each exchange depends
on what the exchanges before it have done, so all that is known of fleets at sites holds of it. -/
namespace LabelFleet

open Printer (Attempt Network Site)

namespace Printer.Network

/-! ### A network as a site -/

section Sites

variable (t : Config.Timeouts) (n : Network) (log : List Attempt)

/-- The network after an exchange under the limit that is configured for it. -/
def attempt (n : Network) : Attempt → Network
  | .dial _ => n
  | .line a text => (n.sendLine a text (.ofMillis t.testPrint.toNat)).2
  | .command a command => (n.sendCommand a command (.ofMillis t.command.toNat)).2
  | .interview address => (n.interview address (.uniform (.ofMillis t.printerTest.toNat))).2

def after : Network := log.foldl (attempt t) n

/-- What comes of each exchange in a network after the exchanges that were begun before it. -/
def site : Site where
  dial log a := ((n.after t log).dial a).map fun answer => answer.map fun _ => ()
  line log a text limit := ((n.after t log).sendLine a text limit).1
  command log a command limit := ((n.after t log).sendCommand a command limit).1
  interview log address limits := ((n.after t log).interview address limits).1

theorem after_concat (attempt : Attempt) :
    n.after t (log ++ [attempt]) = (n.after t log).attempt t attempt := by
  rw [after, List.foldl_append]
  rfl

/-- Dials leave a network as it is. -/
theorem after_append_dials (addresses : List Address) :
    n.after t (log ++ addresses.map .dial) = n.after t log := by
  induction addresses using List.reverseRecOn with
  | nil => rw [List.map_nil, List.append_nil]
  | append_singleton addresses a ih =>
    rw [List.map_append, ← List.append_assoc, List.map_singleton, after_concat, ih]
    rfl

theorem value_connect_site (a : Address) (limit : Duration) :
    ((n.site t).connect log a limit).value =
      ((n.after t log).connect a limit).value.map fun _ => () := by
  rw [Site.connect, connect, Timed.within, Timed.within]
  have htime : ((n.site t).dial log a).inTime limit.millis =
      ((n.after t log).dial a).inTime limit.millis := rfl
  rw [htime]
  split <;> rfl

theorem connectAll_after (addresses : List Address) (limit : Duration) :
    (Join.start ((n.site t).connects limit log addresses)).run.values =
      (n.after t log).connectAll addresses limit := by
  rw [Site.values_connects, connectAll]
  apply List.ext_getElem?
  intro i
  rw [List.getElem?_map, Site.getElem?_connects, Option.map_map, List.getElem?_map]
  congr 1
  funext a
  rw [Function.comp_apply, value_connect_site, after_append_dials]

end Sites

/-! ### Computations over a network -/

/-- A computation over the network gives what one at the site of the network gives, and leaves the
network as the exchanges that the other has begun would leave it. -/
structure Tracks {α : Type} (t : Config.Timeouts) (n : Network) (x : StateM (List Attempt) α)
    (y : StateM Network α) : Prop where
  run_after : ∀ log, y (n.after t log) = ((x log).1, n.after t (x log).2)

section Tracking

variable {t : Config.Timeouts} {n : Network} {α β ε : Type}

theorem tracks_pure (a : α) : Tracks t n (pure a) (pure a) := ⟨fun _ => rfl⟩

theorem Tracks.bind {x : StateM (List Attempt) α} {y : StateM Network α}
    {f : α → StateM (List Attempt) β} {g : α → StateM Network β} (h : Tracks t n x y)
    (hf : ∀ a, Tracks t n (f a) (g a)) : Tracks t n (x >>= f) (y >>= g) where
  run_after log := by
    rw [Site.bind_apply, Site.bind_apply, h.run_after log]
    exact (hf (x log).1).run_after (x log).2

theorem Tracks.mapM {γ : Type} {f : γ → StateM (List Attempt) α} {g : γ → StateM Network α}
    (h : ∀ a, Tracks t n (f a) (g a)) (as : List γ) : Tracks t n (as.mapM f) (as.mapM g) := by
  induction as with
  | nil => exact tracks_pure []
  | cons a as ih =>
    rw [List.mapM_cons, List.mapM_cons]
    exact (h a).bind fun b => ih.bind fun bs => tracks_pure (b :: bs)

theorem Tracks.bindExcept {x : ExceptT ε (StateM (List Attempt)) α}
    {y : ExceptT ε (StateM Network) α} {f : α → ExceptT ε (StateM (List Attempt)) β}
    {g : α → ExceptT ε (StateM Network) β} (h : Tracks t n x.run y.run)
    (hf : ∀ a, Tracks t n (f a).run (g a).run) : Tracks t n (x >>= f).run (y >>= g).run := by
  rw [ExceptT.run_bind, ExceptT.run_bind]
  refine h.bind fun answer => ?_
  cases answer with
  | ok a => exact hf a
  | error e => exact tracks_pure (Except.error e)

theorem Tracks.lift {x : StateM (List Attempt) α} {y : StateM Network α} (h : Tracks t n x y) :
    Tracks t n (ExceptT.lift x : ExceptT ε _ α).run (ExceptT.lift y : ExceptT ε _ α).run where
  run_after log := by
    change ((Except.ok (y (n.after t log)).1 : Except ε α), (y (n.after t log)).2) =
      (Except.ok (x log).1, n.after t (x log).2)
    rw [h.run_after]

theorem tracks_connectAll (addresses : List Address) (limit : Duration) :
    Tracks t n ((n.site t).link.connectAll addresses limit) (link.connectAll addresses limit) where
  run_after log := by
    change ((n.after t log).connectAll addresses limit, n.after t log) =
      ((Join.start ((n.site t).connects limit log addresses)).run.values,
        n.after t (log ++ addresses.map .dial))
    rw [connectAll_after, after_append_dials]

theorem tracks_connect (a : Address) (limit : Duration) :
    Tracks t n ((n.site t).link.connect a limit) (link.connect a limit) := by
  refine (tracks_connectAll [a] limit).bind fun answers => ?_
  cases answers with
  | nil => exact tracks_pure _
  | cons answer answers => exact tracks_pure _

theorem tracks_sendLine (a : Address) (text : String) : Tracks t n
    ((n.site t).link.sendLine a text (.ofMillis t.testPrint.toNat))
    (link.sendLine a text (.ofMillis t.testPrint.toNat)) := by
  refine ⟨fun log => ?_⟩
  exact Prod.ext rfl (after_concat t n log (.line a text)).symm

theorem tracks_sendCommand (a : Address) (command : String) : Tracks t n
    ((n.site t).link.sendCommand a command (.ofMillis t.command.toNat))
    (link.sendCommand a command (.ofMillis t.command.toNat)) := by
  refine ⟨fun log => ?_⟩
  exact Prod.ext rfl (after_concat t n log (.command a command)).symm

theorem tracks_interview (address : String) : Tracks t n
    ((n.site t).link.interview address (.uniform (.ofMillis t.printerTest.toNat)))
    (link.interview address (.uniform (.ofMillis t.printerTest.toNat))) := by
  refine ⟨fun log => ?_⟩
  exact Prod.ext rfl (after_concat t n log (.interview address)).symm

end Tracking

end Printer.Network

namespace Fleet

open Printer.Network (Tracks tracks_pure)

/-- The fleet of a configuration whose printers stand in a network. -/
def overNetwork (c : Config) : Fleet (StateM Network) := ⟨c, Network.link⟩

section Serving

variable (c : Config) (n : Network)

theorem tracks_perform (target : PrinterTarget) (r : Request) : Tracks c.timeouts n
    ((atSite c (n.site c.timeouts)).perform target r).run
    ((overNetwork c).perform target r).run := by
  cases r with
  | test id =>
    exact (Network.tracks_connect ..).lift.bindExcept fun _ => tracks_pure _
  | presence id =>
    exact (Network.tracks_connect ..).lift.bindExcept fun _ => tracks_pure _
  | testPrint id =>
    exact (Network.tracks_sendLine ..).lift.bindExcept fun _ => tracks_pure _
  | send id command =>
    rw [perform, perform]
    by_cases h : Text.allBlank command.toList = true
    · rw [if_pos h, if_pos h]
      exact tracks_pure _
    · rw [if_neg h, if_neg h]
      exact (Network.tracks_sendCommand ..).lift.bindExcept fun _ => tracks_pure _
  | info id =>
    refine (Network.tracks_interview ..).lift.bindExcept fun answer => ?_
    cases answer with
    | ok i => exact tracks_pure _
    | error e => exact tracks_pure _

theorem tracks_serve (r : Request) : Tracks c.timeouts n
    ((atSite c (n.site c.timeouts)).serve r).run ((overNetwork c).serve r).run := by
  cases hprinter : c.printers.get? r.id with
  | none =>
    have hsite : (atSite c (n.site c.timeouts)).serve r = _ := serve_of_unknown hprinter
    have hnetwork : (overNetwork c).serve r = _ := serve_of_unknown hprinter
    rw [hsite, hnetwork]
    exact tracks_pure _
  | some p =>
    have hsite : (atSite c (n.site c.timeouts)).serve r = _ := serve_of_get? hprinter
    have hnetwork : (overNetwork c).serve r = _ := serve_of_get? hprinter
    rw [hsite, hnetwork]
    exact tracks_perform c n _ r

theorem tracks_statusAll : Tracks c.timeouts n
    (atSite c (n.site c.timeouts)).statusAll (overNetwork c).statusAll :=
  (Network.tracks_connectAll ..).bind fun _ => tracks_pure _

/-- Serves requests one after another. -/
def serveAll {m : Type → Type} [Monad m] (fleet : Fleet m) (rs : List Request) :
    m (List (Except ConsoleError Answer)) :=
  rs.mapM fun r => (fleet.serve r).run

theorem serveAll_cons {m : Type → Type} [Monad m] [LawfulMonad m] (fleet : Fleet m) (r : Request)
    (rs : List Request) : fleet.serveAll (r :: rs) =
      (do return (← (fleet.serve r).run) :: (← fleet.serveAll rs)) := List.mapM_cons

/-- Each request is answered as it is after all that was begun for those before it. -/
theorem getElem?_serveAll_atSite (s : Site) (log : List Attempt) {rs : List Request} {i : Nat}
    {r : Request} (h : rs[i]? = some r) :
    ((atSite c s).serveAll rs log).1[i]? =
      some (answer c s ((atSite c s).serveAll (rs.take i) log).2 r).1 := by
  induction rs generalizing log i with
  | nil => cases h
  | cons r' rs ih =>
    rw [serveAll_cons]
    cases i with
    | zero =>
      obtain rfl : r' = r := Option.some.inj h
      rfl
    | succ i =>
      have hnext := ih (answer c s log r').2 h
      rw [List.take_succ_cons, serveAll_cons]
      exact hnext

/-- A network serves requests as its site does, each after those before it; and the status of the
whole fleet tells of each printer whether it can be dialled. -/
theorem network_served (log : List Attempt) (rs : List Request) :
    let s := n.site c.timeouts
    let begun := fun i => ((atSite c s).serveAll (rs.take i) log).2
    ((overNetwork c).serveAll rs (n.after c.timeouts log)).2 =
        n.after c.timeouts (begun rs.length) ∧
      (∀ i r, rs[i]? = some r → ∃ a later,
        ((overNetwork c).serveAll rs (n.after c.timeouts log)).1[i]? = some a ∧
          Served c s (begun i) r a later) ∧
      ∃ table, (overNetwork c).statusAll (n.after c.timeouts log) =
        (table, n.after c.timeouts (log ++ dials c)) ∧ Reported c s log table (log ++ dials c) := by
  intro s begun
  have hall := (Network.Tracks.mapM (tracks_serve c n) rs).run_after log
  have hanswers : (overNetwork c).serveAll rs (n.after c.timeouts log) =
      (((atSite c s).serveAll rs log).1,
        n.after c.timeouts ((atSite c s).serveAll rs log).2) := hall
  refine ⟨?_, ?_, ?_⟩
  · rw [hanswers]
    dsimp only [begun]
    rw [List.take_length]
  · intro i r hr
    refine ⟨_, _, ?_, served_answer c s (begun i) r⟩
    rw [hanswers]
    exact getElem?_serveAll_atSite c s log hr
  · have hreported := reported_status c s log
    have hstatus := (tracks_statusAll c n).run_after log
    refine ⟨(status c s log).1, ?_, hreported.begun ▸ hreported⟩
    rw [← hreported.begun]
    exact hstatus

/-- What a request to a configured printer comes to over a network. -/
theorem serve_overNetwork {r : Request} {p : Config.Printer}
    (h : c.printers.get? r.id = some p) (hempty : ¬ r.Empty) :
    ((overNetwork c).serve r).run n =
      (outcome c (n.site c.timeouts) [] p r, n.attempt c.timeouts (r.attempt p)) := by
  have hserve := (tracks_serve c n r).run_after []
  have hanswer := answer_of_get? (n.site c.timeouts) [] h hempty
  rw [answer] at hanswer
  rw [hanswer] at hserve
  exact hserve

end Serving

end Fleet

end LabelFleet
