import LabelFleet.Proofs.Networks
import LabelFleet.Proofs.Printer.Addresses
import LabelFleet.Proofs.Printer.Interviews

/-! A fleet of emulated printers. Each is found by its configured address, answers every request
that is made of it, and remembers what the requests have brought it; no printer notices what is
asked of the others. -/
namespace LabelFleet

open Printer (Attempt Emulator Info Network Peer)

namespace Printer

/-! ### What a command brings -/

/-- What a client takes of all that a printer replies: the first line, if there is one. -/
def firstLine? (replies : List Char) : Option String :=
  if replies.isEmpty then none
  else some (String.ofList (withoutLineEnd (replies.takeWhile (· != '\n'))))

theorem withoutLineEnd_concat (line : List Char) :
    withoutLineEnd (line ++ ['\n']) = withoutLineEnd line := by
  rw [withoutLineEnd, List.reverse_append]
  rfl

theorem IsLine.firstLine?_append {s : List Char} (h : IsLine s) (rest : List Char) :
    firstLine? (s ++ rest) = some (String.ofList (withoutLineEnd s)) := by
  obtain ⟨line, rfl, hline⟩ := h
  have hfirst : (line ++ ['\n'] ++ rest).takeWhile (· != '\n') = line := by
    rw [List.append_assoc, List.takeWhile_append_of_pos]
    · simp
    · intro c hc
      exact bne_iff_ne.mpr fun he => hline (he ▸ hc)
  rw [firstLine?, if_neg (by simp), hfirst, withoutLineEnd_concat]

theorem IsLine.reply_eq {s : List Char} (h : IsLine s) :
    (Heard.bytes (Utf8.encode s)).reply = .ok (some (String.ofList (withoutLineEnd s))) := by
  obtain ⟨b, bytes, hcons⟩ := List.exists_cons_of_ne_nil h.encode_ne_nil
  have htext : (Heard.bytes (b :: bytes)).reply = (lineText (b :: bytes)).map some := rfl
  rw [hcons, htext, ← hcons, lineText, Utf8.decode_encode]
  rfl

namespace Emulator

variable {e : Emulator}

/-- All that a printer replies is nothing, or starts with a line. -/
theorem replies_eq_nil_or_line (hname : Plain e.name) (hmodel : Plain e.model)
    (cs : List (List UInt8)) :
    (e.receiveAll cs).2 = [] ∨ ∃ line rest, IsLine line ∧ (e.receiveAll cs).2 = line ++ rest := by
  induction cs generalizing e with
  | nil => exact .inl rfl
  | cons chunk cs ih =>
    have hnext : (e.receiveAll (chunk :: cs)).2 =
        ((e.respond (chunkText chunk)).2.getD "").toList ++
        ((e.respond (chunkText chunk)).1.receiveAll cs).2 := rfl
    rw [hnext]
    cases hreply : (e.respond (chunkText chunk)).2 with
    | none =>
      apply ih
      · exact (e.name_perform (.send (chunkText chunk))).symm ▸ hname
      · exact (e.model_perform (.send (chunkText chunk))).symm ▸ hmodel
    | some reply => exact .inr ⟨_, _, isLine_of_reply hname hmodel hreply, rfl⟩

/-- Whatever a printer receives, it keeps its name and its model. -/
theorem names_receiveAll (cs : List (List UInt8)) :
    (e.receiveAll cs).1.name = e.name ∧ (e.receiveAll cs).1.model = e.model := by
  induction cs generalizing e with
  | nil => exact ⟨rfl, rfl⟩
  | cons chunk cs ih =>
    exact ⟨ih.1.trans (e.name_perform (.send (chunkText chunk))),
      ih.2.trans (e.model_perform (.send (chunkText chunk)))⟩

end Emulator

namespace Channel

variable {c : Channel} {e : Emulator}

theorem reply_of_arriving_nil (h : c.arriving = []) (limit : Nat) :
    (c.readLine limit).1.reply = .ok none := by
  rw [readLine, h]
  cases c.hungUp with
  | none => rfl
  | some time =>
    by_cases htime : time ≤ c.now + limit
    · simp [splitLine?, htime, Heard.reply]
    · simp [splitLine?, htime, Heard.reply]

/-- However long the client waits, it hears the first line of the reply. -/
theorem Idle.reply_eq (h : c.Idle e) (hname : Plain e.name) (hmodel : Plain e.model)
    (data : List UInt8) (limit : Nat) :
    ((c.write data).readLine limit).1.reply = .ok (firstLine? (e.receiveAll (chunks data)).2) := by
  rw [h.write_eq]
  rcases Emulator.replies_eq_nil_or_line hname hmodel (chunks data) with
    hnil | ⟨line, rest, hline, hreplies⟩
  · rw [hnil]
    exact reply_of_arriving_nil rfl limit
  · have harriving : (Utf8.encode (line ++ rest)).map (fun b => (c.now, b)) =
        (Utf8.encode line).map (fun b => (c.now, b)) ++
          (Utf8.encode rest).map fun b => (c.now, b) := by
      rw [Utf8.encode, List.flatMap_append, List.map_append]
      rfl
    rw [hreplies, hline.firstLine?_append, hline.readLine_eq harriving]
    · exact hline.reply_eq
    · rw [List.map_map]
      exact List.map_id _
    · intro b hb
      obtain ⟨b, -, rfl⟩ := List.mem_map.mp hb
      exact Nat.le_add_right c.now limit

/-- What a printer has taken does not depend on whether the client waits for a reply. -/
theorem Idle.peer_finish_write (h : c.Idle e) (data : List UInt8) :
    (c.write data).finish.peer = .emulator (e.receiveAll (chunks data)).1 := by
  rw [finish_of_unfinished, h.write_eq]
  rw [h.write_eq]
  exact h.unfinished

theorem Idle.peer_finish_readLine (h : c.Idle e) (data : List UInt8) (limit : Nat) :
    ((c.write data).readLine limit).2.finish.peer =
      .emulator (e.receiveAll (chunks data)).1 := by
  rw [finish_of_unfinished, peer_readLine, h.write_eq]
  rw [unfinished_readLine, h.write_eq]
  exact h.unfinished

end Channel

/-! ### Exchanges -/

namespace Network

/-- At the endpoint of an address stands an emulated printer, which takes `d` milliseconds to answer
a dial. -/
structure Holds (n : Network) (a : Address) (d : ℕ) (endpoint : Endpoint) (e : Emulator) :
    Prop where
  resolves : a.resolve n.lookup = .ok endpoint
  delay : (n.station endpoint).delay = some d
  printer : (n.station endpoint).value = .ok (.emulator e)

variable {n : Network} {a b : Address} {d : ℕ} {endpoint other : Endpoint} {e : Emulator}
  {limit : Duration}

theorem Holds.dial_eq (h : n.Holds a d endpoint e) :
    n.dial a = ⟨some d, .ok (endpoint, .emulator e)⟩ := by
  rw [dial, h.resolves]
  change (⟨(n.station endpoint).delay, ((n.station endpoint).value.mapError _).map _⟩ : Timed _) = _
  rw [h.delay, h.printer]
  rfl

theorem Holds.value_within (h : n.Holds a d endpoint e) (hd : d ≤ limit.millis)
    (late : Except PrinterError (Endpoint × Peer)) :
    ((n.dial a).within limit.millis late).value = .ok (endpoint, .emulator e) := by
  rw [h.dial_eq]
  exact if_pos (decide_eq_true hd)

theorem Holds.connect_eq (h : n.Holds a d endpoint e) (hd : d ≤ limit.millis) :
    (n.connect a limit).value = .ok (endpoint, .emulator e) :=
  h.value_within hd (.error (.connectionTimeout a.text limit))

theorem Holds.openFor_eq (h : n.Holds a d endpoint e) (hd : d ≤ limit.millis) :
    (n.openFor a limit).value = .ok (endpoint, .emulator e) :=
  h.value_within hd (.error (.exchangeTimeout a.text limit))

/-- What an exchange has done to the printer is kept for the next one. -/
theorem Holds.store (h : n.Holds a d endpoint e) (after : Emulator) :
    (n.store endpoint (.emulator after)).Holds a d endpoint after := by
  have hstation : (n.store endpoint (.emulator after)).station endpoint =
      { n.station endpoint with value := .ok (.emulator after) } := if_pos rfl
  exact ⟨h.resolves, by rw [hstation, h.delay], by rw [hstation]⟩

/-- It is nothing to a printer elsewhere. -/
theorem Holds.store_of_ne (h : n.Holds a d endpoint e) (hne : endpoint ≠ other)
    (after : Emulator) : (n.store other (.emulator after)).Holds a d endpoint e := by
  have hstation : (n.store other (.emulator after)).station endpoint = n.station endpoint :=
    if_neg hne
  exact ⟨h.resolves, by rw [hstation, h.delay], by rw [hstation, h.printer]⟩

theorem sendLine_of_open {peer : Peer} (h : (n.openFor a limit).value = .ok (endpoint, peer))
    (text : String) : n.sendLine a text limit =
      (.ok (), n.store endpoint (({ peer } : Channel).write (commandLine text)).finish.peer) := by
  unfold sendLine
  simp only [h]

theorem sendCommand_of_open {peer : Peer} (h : (n.openFor a limit).value = .ok (endpoint, peer))
    (command : String) : n.sendCommand a command limit =
      let answer := (({ peer } : Channel).write (commandLine command)).readLine
        (replyLimit limit ((n.openFor a limit).waited limit.millis))
      (answer.1.reply, n.store endpoint answer.2.finish.peer) := by
  unfold sendCommand
  simp only [h]

theorem interview_of_open {address : String} {limits : Limits} {session : Session}
    (h : n.openSession address limits = .ok (endpoint, session)) : n.interview address limits =
      let answer := (Printer.interview Session.asking).run session
      (answer.1, n.store endpoint answer.2.channel.finish.peer) := by
  unfold interview
  simp only [h]
  rfl

theorem Holds.sendLine_eq (h : n.Holds a d endpoint e) (hd : d ≤ limit.millis) (text : String) :
    n.sendLine a text limit = (.ok (),
      n.store endpoint (.emulator (e.receiveAll (chunks (commandLine text))).1)) := by
  rw [sendLine_of_open (h.openFor_eq hd), (Channel.idle_new e).peer_finish_write]

theorem Holds.sendCommand_eq (h : n.Holds a d endpoint e) (hd : d ≤ limit.millis)
    (hname : Plain e.name) (hmodel : Plain e.model) (command : String) :
    n.sendCommand a command limit =
      (.ok (firstLine? (e.receiveAll (chunks (commandLine command))).2),
        n.store endpoint (.emulator (e.receiveAll (chunks (commandLine command))).1)) := by
  rw [sendCommand_of_open (h.openFor_eq hd)]
  dsimp only
  rw [(Channel.idle_new e).peer_finish_readLine, (Channel.idle_new e).reply_eq hname hmodel]

theorem Holds.interview_eq (h : n.Holds a d endpoint e) (limits : Limits)
    (hd : d ≤ limits.connect.millis) (husable : Address.Usable a.host.toList)
    (hname : Plain e.name) (hmodel : Plain e.model) :
    n.interview a.text limits =
      (.ok e.info, n.store endpoint (.emulator { e with lastCommand := some "^WD\n" })) := by
  let kept : Address := ⟨Address.keptHost a.host, a.port⟩
  have hkept : n.Holds kept d endpoint e :=
    ⟨(Address.resolve_keptHost n.lookup a.host a.port).trans h.resolves, h.delay, h.printer⟩
  have hopen : n.openSession a.text limits =
      .ok (endpoint, ⟨kept, limits, { peer := .emulator e }⟩) := by
    rw [openSession, Address.parse_text husable]
    change ((n.connect kept limits.connect).value >>= fun r =>
      pure (r.1, (⟨kept, limits, { peer := r.2 }⟩ : Session))) = _
    rw [hkept.connect_eq hd]
    rfl
  obtain ⟨next, hrun, hidle⟩ := interview_emulated
    (s := ⟨kept, limits, { peer := .emulator e }⟩) (Channel.idle_new e) hname hmodel
  rw [interview_of_open hopen]
  dsimp only
  rw [hrun, Channel.finish_of_unfinished hidle.unfinished, hidle.peer]

theorem Holds.store_self (h : n.Holds a d endpoint e) : n.store endpoint (.emulator e) = n := by
  have hstation : (n.store endpoint (.emulator e)).station = n.station := by
    funext place
    by_cases hplace : place = endpoint
    · subst hplace
      have hkept : n.station place = { n.station place with value := .ok (.emulator e) } := by
        rw [← h.printer]
      exact (if_pos rfl).trans hkept.symm
    · exact if_neg hplace
  exact congrArg (Network.mk n.lookup) hstation

theorem reaches_site (t : Config.Timeouts) (log : List Attempt) (n : Network) (limit : ℕ)
    (a : Address) : (n.site t).reaches limit log a = ((n.after t log).dial a).succeeds limit := by
  rw [Site.reaches, Timed.succeeds, Timed.succeeds]
  congr 1
  change (((n.after t log).dial a).value.map fun _ => ()).isOk = _
  cases ((n.after t log).dial a).value <;> rfl

theorem Holds.succeeds_dial (h : n.Holds a d endpoint e) {limit : ℕ} (hd : d ≤ limit) :
    (n.dial a).succeeds limit = true := by
  rw [h.dial_eq, Timed.succeeds_eq, Timed.inTime_eq]
  simpa [Except.isOk, Except.toBool] using hd

end Network

/-! ### Requests -/

namespace Emulator

/-- An emulated printer after a request has been served. -/
def after (e : Emulator) : Fleet.Request → Emulator
  | .test _ => e
  | .presence _ => e
  | .testPrint _ => (e.receiveAll (chunks (commandLine testLabel))).1
  | .send _ command =>
    if Text.allBlank command.toList then e else (e.receiveAll (chunks (commandLine command))).1
  | .info _ => { e with lastCommand := some "^WD\n" }

/-- What is answered to a request of an emulated printer. -/
def answer (e : Emulator) : Fleet.Request → Except ConsoleError Fleet.Answer
  | .test _ => .ok (.reachable true)
  | .presence _ => .ok (.presence .online)
  | .testPrint _ => .ok (.printed true)
  | .send _ command =>
    if Text.allBlank command.toList then .error (.badRequest "Empty command")
    else .ok (.sent ⟨true, firstLine? (e.receiveAll (chunks (commandLine command))).2⟩)
  | .info _ => .ok (.info e.info)

variable (e : Emulator) {r : Fleet.Request}

theorem names_after (r : Fleet.Request) :
    (e.after r).name = e.name ∧ (e.after r).model = e.model := by
  cases r with
  | testPrint _ => exact e.names_receiveAll _
  | send _ command =>
    rw [after]
    split
    · exact ⟨rfl, rfl⟩
    · exact e.names_receiveAll _
  | _ => exact ⟨rfl, rfl⟩

theorem after_of_empty (h : r.Empty) : e.after r = e := by
  cases r with
  | send _ command => exact if_pos (Text.allBlank_iff.mpr h)
  | _ => exact h.elim

theorem answer_of_empty (h : r.Empty) :
    e.answer r = .error (.badRequest "Empty command") := by
  cases r with
  | send _ command => exact if_pos (Text.allBlank_iff.mpr h)
  | _ => exact h.elim

end Emulator

end Printer

namespace Fleet

open Printer (Emulator Plain)

variable {c : Config} {n : Network} {place : String → Endpoint} {es : String → Emulator}

/-- The printers of a configuration are emulated, each at a place of its own, and take no longer to
answer a dial than any request may take. -/
structure Emulated (c : Config) (n : Network) (place : String → Endpoint)
    (es : String → Emulator) : Prop where
  apart : ∀ id ∈ c.printers.keys, ∀ other ∈ c.printers.keys, place id = place other → id = other
  usable : ∀ id p, c.printers.get? id = some p → Address.Usable p.host.toList
  plain : ∀ id ∈ c.printers.keys, Plain (es id).name ∧ Plain (es id).model
  holds : ∀ id p, c.printers.get? id = some p → ∃ d,
    d ≤ c.timeouts.printerTest.toNat ∧ d ≤ c.timeouts.testPrint.toNat ∧
      d ≤ c.timeouts.command.toNat ∧ n.Holds ⟨p.host, p.port⟩ d (place id) (es id)

/-- The builtin printers are such a fleet in any network in which their names lead to two emulated
printers. -/
theorem emulated_builtin {one two : Ip} {first second : Emulator} {d : ℕ} (hd : d ≤ 1500)
    (hlookup : n.lookup "zebra-printer-1" = some one ∧ n.lookup "zebra-printer-2" = some two)
    (hne : one ≠ two) (hfirst : n.station ⟨one, 9100⟩ = ⟨some d, .ok (.emulator first)⟩)
    (hsecond : n.station ⟨two, 9100⟩ = ⟨some d, .ok (.emulator second)⟩)
    (hplain : Plain first.name ∧ Plain first.model)
    (hplain' : Plain second.name ∧ Plain second.model) :
    Emulated {} n (fun id => ⟨if id = "zebra-1" then one else two, 9100⟩)
      (fun id => if id = "zebra-1" then first else second) := by
  have hkeys : ({} : Config).printers.keys = ["zebra-1", "zebra-2"] := by decide
  have hentries : ({} : Config).printers.entries = [
      ("zebra-1", { host := "zebra-printer-1", name := "ZEBRA-001", model := "ZT230" }),
      ("zebra-2", { host := "zebra-printer-2", name := "ZEBRA-002", model := "ZT410" })] := by
    decide
  have hmem : ∀ {id p}, ({} : Config).printers.get? id = some p →
      id = "zebra-1" ∧ p = ⟨"zebra-printer-1", 9100, "ZEBRA-001", "ZT230"⟩ ∨
        id = "zebra-2" ∧ p = ⟨"zebra-printer-2", 9100, "ZEBRA-002", "ZT410"⟩ := by
    intro id p hp
    have hin := Table.get?_eq_some_iff.mp hp
    rw [hentries] at hin
    simpa [Address.defaultPort] using hin
  have hresolve : ∀ {host ip}, Ip.parse? host.toList = none → n.lookup host = some ip →
      (⟨host, 9100⟩ : Address).resolve n.lookup = .ok ⟨ip, 9100⟩ := by
    intro host ip hparse hhost
    rw [Address.resolve, hparse, hhost]
    rfl
  refine ⟨?_, ?_, ?_, ?_⟩
  · intro id hid other hother hplace
    rw [hkeys] at hid hother
    simp only [List.mem_cons, List.not_mem_nil, or_false] at hid hother
    rcases hid with rfl | rfl <;> rcases hother with rfl | rfl
    · rfl
    · exact absurd (congrArg Endpoint.ip hplace) hne
    · exact absurd (congrArg Endpoint.ip hplace) hne.symm
    · rfl
  · intro id p hp
    rcases hmem hp with ⟨rfl, rfl⟩ | ⟨rfl, rfl⟩
    · exact .inr (Address.isHostName_iff.mp (by decide))
    · exact .inr (Address.isHostName_iff.mp (by decide))
  · intro id hid
    split
    · exact hplain
    · exact hplain'
  · intro id p hp
    refine ⟨d, hd, hd.trans (by decide), hd.trans (by decide), ?_⟩
    rcases hmem hp with ⟨rfl, rfl⟩ | ⟨rfl, rfl⟩
    · exact ⟨hresolve (by decide) hlookup.1, congrArg Timed.delay hfirst,
        congrArg Timed.value hfirst⟩
    · exact ⟨hresolve (by decide) hlookup.2, congrArg Timed.delay hsecond,
        congrArg Timed.value hsecond⟩

/-- The printers after a request has been served. -/
def after (es : String → Emulator) (r : Request) : String → Emulator :=
  Function.update es r.id ((es r.id).after r)

/-- A request is answered by the printer that it names. -/
def answerOf (c : Config) (es : String → Emulator) (r : Request) : Except ConsoleError Answer :=
  if r.id ∈ c.printers.keys then (es r.id).answer r else .error (.unknownPrinter r.id)

/-- What a request that is not refused comes to, and what it does to the printer. -/
theorem Emulated.outcome (h : Emulated c n place es) {r : Request} {p : Config.Printer}
    (hp : c.printers.get? r.id = some p) (hempty : ¬ r.Empty) :
    outcome c (n.site c.timeouts) [] p r = (es r.id).answer r ∧
      n.attempt c.timeouts (r.attempt p) =
        n.store (place r.id) (.emulator ((es r.id).after r)) := by
  obtain ⟨d, htest, hprint, hcommand, hholds⟩ := h.holds _ p hp
  obtain ⟨hname, hmodel⟩ := h.plain _ (Table.mem_keys_iff.mpr ⟨p, hp⟩)
  have hreaches : (n.site c.timeouts).reaches c.timeouts.printerTest.toNat [] ⟨p.host, p.port⟩ =
      true := (Network.reaches_site ..).trans (hholds.succeeds_dial htest)
  rw [← Duration.millis_ofMillis c.timeouts.printerTest.toNat] at htest
  rw [← Duration.millis_ofMillis c.timeouts.testPrint.toNat] at hprint
  rw [← Duration.millis_ofMillis c.timeouts.command.toNat] at hcommand
  cases r with
  | test id | presence id =>
    refine ⟨?_, hholds.store_self.symm⟩
    rw [Fleet.outcome, hreaches]
    rfl
  | testPrint id =>
    have hsent := hholds.sendLine_eq hprint Printer.testLabel
    refine ⟨?_, congrArg Prod.snd hsent⟩
    have hline : (n.site c.timeouts).line [] ⟨p.host, p.port⟩
        "^XA^FO50,50^ADN,36,20^FDTest Label^FS^XZ" (.ofMillis c.timeouts.testPrint.toNat) =
          .ok () := congrArg Prod.fst hsent
    rw [Fleet.outcome, hline]
    rfl
  | send id command =>
    have hblank : ¬ Text.allBlank command.toList = true := mt Text.allBlank_iff.mp hempty
    have hsent := hholds.sendCommand_eq hcommand hname hmodel command
    rw [Emulator.answer, Emulator.after, if_neg hblank, if_neg hblank]
    refine ⟨?_, congrArg Prod.snd hsent⟩
    have hreply : (n.site c.timeouts).command [] ⟨p.host, p.port⟩ command
        (.ofMillis c.timeouts.command.toNat) = _ := congrArg Prod.fst hsent
    rw [Fleet.outcome, hreply]
  | info id =>
    have htold := hholds.interview_eq (.uniform (.ofMillis c.timeouts.printerTest.toNat)) htest
      (h.usable _ p hp) hname hmodel
    refine ⟨?_, congrArg Prod.snd htold⟩
    have hinfo : (n.site c.timeouts).interview [] (Address.text ⟨p.host, p.port⟩)
        (.uniform (.ofMillis c.timeouts.printerTest.toNat)) = _ := congrArg Prod.fst htold
    rw [Fleet.outcome, hinfo]
    rfl

/-- A request is answered by the printer that it names, and nothing else changes. -/
theorem Emulated.run_serve (h : Emulated c n place es) (r : Request) :
    ((overNetwork c).serve r).run n = (answerOf c es r,
      if r.id ∈ c.printers.keys then n.store (place r.id) (.emulator ((es r.id).after r))
      else n) := by
  rw [answerOf]
  cases hprinter : c.printers.get? r.id with
  | none =>
    have hnot : r.id ∉ c.printers.keys := Table.get?_eq_none_iff.mp hprinter
    have hserve : (overNetwork c).serve r = _ := serve_of_unknown hprinter
    rw [if_neg hnot, if_neg hnot, hserve]
    rfl
  | some p =>
    have hmem : r.id ∈ c.printers.keys := Table.mem_keys_iff.mpr ⟨p, hprinter⟩
    rw [if_pos hmem, if_pos hmem]
    by_cases hempty : r.Empty
    · obtain ⟨d, -, -, -, hholds⟩ := h.holds _ p hprinter
      have hserve : (overNetwork c).serve r = _ := serve_of_get? hprinter
      rw [hserve, perform_of_empty hempty, Emulator.answer_of_empty _ hempty,
        Emulator.after_of_empty _ hempty, hholds.store_self]
      rfl
    · obtain ⟨hanswer, hnetwork⟩ := h.outcome hprinter hempty
      rw [serve_overNetwork c n hprinter hempty, hanswer, hnetwork]

/-- The printers stay where they are. -/
theorem Emulated.after (h : Emulated c n place es) (r : Request) :
    Emulated c (((overNetwork c).serve r).run n).2 place (after es r) := by
  rw [h.run_serve]
  have hsame : Fleet.after es r r.id = (es r.id).after r := Function.update_self ..
  have hother : ∀ id, id ≠ r.id → Fleet.after es r id = es id := fun id hne =>
    Function.update_of_ne hne ..
  refine ⟨h.apart, h.usable, ?_, ?_⟩
  · intro id hid
    by_cases he : id = r.id
    · subst he
      obtain ⟨hname, hmodel⟩ := (es r.id).names_after r
      rw [hsame, hname, hmodel]
      exact h.plain _ hid
    · rw [hother id he]
      exact h.plain id hid
  · intro id p hp
    obtain ⟨d, htest, hprint, hcommand, hholds⟩ := h.holds id p hp
    have hid : id ∈ c.printers.keys := Table.mem_keys_iff.mpr ⟨p, hp⟩
    refine ⟨d, htest, hprint, hcommand, ?_⟩
    by_cases he : id = r.id
    · subst he
      rw [hsame]
      dsimp only
      rw [if_pos hid]
      exact hholds.store _
    · rw [hother id he]
      dsimp only
      split
      next hr => exact hholds.store_of_ne (fun hplace => he (h.apart _ hid _ hr hplace)) _
      next => exact hholds

/-- All printers are found to be reachable. -/
theorem Emulated.get?_statusAll (h : Emulated c n place es) {id : String} {p : Config.Printer}
    (hp : c.printers.get? id = some p) : ((overNetwork c).statusAll n).1.get? id =
      some ⟨⟨id, p.host, p.port, p.name, p.model⟩, true⟩ := by
  obtain ⟨d, htest, -, -, hholds⟩ := h.holds id p hp
  obtain ⟨i, hi⟩ := List.getElem?_of_mem (Table.get?_eq_some_iff.mp hp)
  have hreported := reported_status c (n.site c.timeouts) []
  have hdials : n.after c.timeouts ([] ++ (dials c).take i) = n := by
    rw [dials_eq, ← List.map_take, Network.after_append_dials]
    rfl
  have hreaches : (n.site c.timeouts).reaches c.timeouts.printerTest.toNat
      ([] ++ (dials c).take i) ⟨p.host, p.port⟩ = true := by
    rw [Network.reaches_site, hdials]
    exact hholds.succeeds_dial htest
  have htable : ((overNetwork c).statusAll n).1 = (status c (n.site c.timeouts) []).1 :=
    congrArg Prod.fst ((tracks_statusAll c n).run_after [])
  rw [htable, hreported.entry i id p hi, hreaches]

/-- Requests are answered one after another, each by its printer as those before it have left it. -/
theorem Emulated.serveAll (h : Emulated c n place es) (rs : List Request) :
    Emulated c ((overNetwork c).serveAll rs n).2 place (rs.foldl Fleet.after es) ∧
      ∀ i r, rs[i]? = some r → ((overNetwork c).serveAll rs n).1[i]? =
        some (answerOf c ((rs.take i).foldl Fleet.after es) r) := by
  induction rs generalizing n es with
  | nil => exact ⟨h, fun i r hr => nomatch hr⟩
  | cons r rs ih =>
    let next := (((overNetwork c).serve r).run n).2
    have hfirst : (((overNetwork c).serve r).run n).1 = answerOf c es r := by rw [h.run_serve]
    have hall : (overNetwork c).serveAll (r :: rs) n =
        ((((overNetwork c).serve r).run n).1 :: ((overNetwork c).serveAll rs next).1,
          ((overNetwork c).serveAll rs next).2) := by
      rw [serveAll_cons]
      rfl
    obtain ⟨hemulated, hanswers⟩ := ih (h.after r)
    rw [hall, hfirst]
    refine ⟨hemulated, ?_⟩
    intro i r' hr'
    cases i with
    | zero =>
      obtain rfl : r = r' := Option.some.inj hr'
      rfl
    | succ i => exact hanswers i r' hr'

/-- A printer is changed by the requests that name it, and by no others. -/
theorem foldl_after (es : String → Emulator) (rs : List Request) (id : String) :
    rs.foldl after es id = (rs.filter (·.id = id)).foldl Emulator.after (es id) := by
  induction rs generalizing es with
  | nil => rfl
  | cons r rs ih =>
    rw [List.foldl_cons, ih, List.filter_cons]
    by_cases he : r.id = id
    · subst he
      have hsame : after es r r.id = (es r.id).after r := Function.update_self ..
      rw [hsame, if_pos (decide_eq_true rfl), List.foldl_cons]
    · have hother : after es r id = es id := Function.update_of_ne (Ne.symm he) ..
      rw [hother, if_neg (by simpa using he)]

/-! ### Labels -/

/-- How many labels a printer counts when it serves a request. -/
def Request.labels : Request → ℕ
  | .testPrint _ => 1
  | .send _ command =>
    if Text.allBlank command.toList then 0
    else Printer.heard (Printer.chunks (Printer.commandLine command))
  | _ => 0

theorem heard_testLabel :
    Printer.heard (Printer.chunks (Printer.commandLine Printer.testLabel)) = 1 := by
  rw [Printer.chunks_of_length_le (by decide) (by decide), Printer.heard_singleton]
  decide

theorem jobs_after (e : Emulator) (r : Request) :
    (e.after r).jobs = e.jobs + UInt64.ofNat r.labels := by
  have hsame : e.jobs = e.jobs + UInt64.ofNat 0 := (UInt64.add_zero e.jobs).symm
  cases r with
  | testPrint id =>
    rw [Emulator.after, Emulator.jobs_receiveAll, heard_testLabel]
    rfl
  | send id command =>
    rw [Emulator.after, Request.labels]
    split
    · exact hsame
    · exact e.jobs_receiveAll _
  | _ => exact hsame

theorem jobs_foldl_after (e : Emulator) (rs : List Request) :
    (rs.foldl Emulator.after e).jobs = e.jobs + UInt64.ofNat (rs.map Request.labels).sum := by
  induction rs generalizing e with
  | nil => exact (UInt64.add_zero e.jobs).symm
  | cons r rs ih =>
    rw [List.foldl_cons, ih, jobs_after, List.map_cons, List.sum_cons, UInt64.ofNat_add,
      UInt64.add_assoc]

/-- No more labels are counted than end in the command, however it is cut up on its way. -/
theorem labels_send_le (id command : String) :
    (Request.send id command).labels ≤ Printer.closings (Printer.commandLine command) := by
  rw [Request.labels]
  split
  · exact Nat.zero_le _
  · exact Printer.heard_chunks_le _

/-- A printer that is asked about itself after any requests tells of all the labels that they have
brought it. -/
theorem Emulated.info_serveAll (h : Emulated c n place es) (rs : List Request) {id : String}
    (hid : id ∈ c.printers.keys) :
    let asked := rs.filter (·.id = id)
    let e := asked.foldl Emulator.after (es id)
    (((overNetwork c).serve (.info id)).run ((overNetwork c).serveAll rs n).2).1 =
        .ok (.info e.info) ∧
      e.jobs = (es id).jobs + UInt64.ofNat (asked.map Request.labels).sum := by
  intro asked e
  refine ⟨?_, jobs_foldl_after (es id) asked⟩
  have hid' : (Request.info id).id ∈ c.printers.keys := hid
  rw [(h.serveAll rs).1.run_serve, answerOf, if_pos hid', foldl_after]
  rfl

end Fleet

end LabelFleet
