import LabelFleet.Proofs.Printer.Deliveries

/-! The answers of a session. A query takes the next line that the printer has sent, whichever query
that line was meant for. So the answers come in the order of the queries, and a query is given its
own answer as long as none before it has stopped waiting; from then on every answer is late by as
many queries as have stopped. -/
namespace LabelFleet.Printer

/-- The answer of a query that has stopped waiting. -/
abbrev unheard : Except PrinterError String := .error .readTimeout

/-- The text of the line by which a cue answers. -/
def Cue.answer (cue : Cue) : Except PrinterError String := lineText cue.reply

theorem Cue.answer_ne_unheard (cue : Cue) : cue.answer ≠ unheard := by
  rw [answer, lineText]
  split <;> simp

/-- The answers to queries of a client to which a printer owes the answers of `cues`: each is the
next of them, or none was heard in time and all of them are left for later. -/
inductive InOrder : List Cue → List (Except PrinterError String) → Prop
  | nil (cues) : InOrder cues []
  | late {cues answers} : InOrder cues answers → InOrder cues (unheard :: answers)
  | next {cue cues answers} : InOrder cues answers → InOrder (cue :: cues) (cue.answer :: answers)

/-- Behind `k` queries that have stopped waiting, a query is given the answer to the line `k` places
before its own. -/
theorem InOrder.getElem? {cues : List Cue} {answers : List (Except PrinterError String)}
    (h : InOrder cues answers) {i : Nat} {answer : Except PrinterError String}
    (hi : answers[i]? = some answer) (hheard : answer ≠ unheard) :
    ∃ cue, cues[i - (answers.take i).count unheard]? = some cue ∧ answer = cue.answer := by
  induction h generalizing i with
  | nil cues => simp at hi
  | late h ih =>
    cases i with
    | zero => exact absurd (Option.some.inj hi).symm hheard
    | succ i =>
      obtain ⟨cue, hcue, hanswer⟩ := ih hi
      refine ⟨cue, ?_, hanswer⟩
      rw [List.take_succ_cons, List.count_cons_self, Nat.add_sub_add_right]
      exact hcue
  | @next cue cues answers h ih =>
    cases i with
    | zero => exact ⟨cue, rfl, (Option.some.inj hi).symm⟩
    | succ i =>
      obtain ⟨later, hlater, hanswer⟩ := ih hi
      refine ⟨later, ?_, hanswer⟩
      have hcount : (answers.take i).count unheard ≤ i :=
        List.count_le_length.trans (List.length_take_le i answers)
      rw [List.take_succ_cons, List.count_cons_of_ne cue.answer_ne_unheard,
        Nat.succ_sub hcount]
      exact hlater

namespace Session

/-! ### One query -/

variable {s : Session} {cues : List Cue}

theorem query_eq (s : Session) (command : String) :
    s.query command =
      ((((s.channel.write (commandLine command)).readLine s.limits.read.millis).1).answer,
        { s with
          channel := ((s.channel.write (commandLine command)).readLine
            s.limits.read.millis).2 }) := rfl

theorem answer_bytes {cue : Cue} (hcue : cue.AnswersLine) :
    (Heard.bytes cue.reply).answer = cue.answer := by
  obtain ⟨b, bytes, hreply⟩ := List.exists_cons_of_ne_nil hcue.reply_ne_nil
  rw [Cue.answer, hreply]
  rfl

/-- A query takes the first answer that is owed, or none. -/
theorem query_takes (h : s.channel.Owes cues) (hcues : ∀ cue ∈ cues, cue.AnswersLine)
    (command : String) :
    (s.query command).1 = unheard ∧ (s.query command).2.channel.Owes cues ∨
      ∃ cue later, cues = cue :: later ∧ (s.query command).1 = cue.answer ∧
        (s.query command).2.channel.Owes later := by
  rw [query_eq]
  rcases (h.write hcues _).readLine hcues s.limits.read.millis with
    ⟨hsilence, hstill⟩ | ⟨cue, later, hfirst, hheard, hstill⟩
  · exact .inl ⟨by rw [hsilence]; rfl, hstill⟩
  · have hcue : cue.AnswersLine := hcues cue (by simp [hfirst])
    exact .inr ⟨cue, later, hfirst, by rw [hheard, answer_bytes hcue], hstill⟩

/-! ### Sessions -/

theorem length_queries (s : Session) (commands : List String) :
    (s.queries commands).1.length = commands.length := by
  induction commands generalizing s with
  | nil => rfl
  | cons command commands ih => exact congrArg (· + 1) (ih (s.query command).2)

theorem inOrder_queries (h : s.channel.Owes cues) (hcues : ∀ cue ∈ cues, cue.AnswersLine)
    (commands : List String) : InOrder cues (s.queries commands).1 := by
  induction commands generalizing s cues with
  | nil => exact .nil cues
  | cons command commands ih =>
    have hcons : (s.queries (command :: commands)).1 =
        (s.query command).1 :: ((s.query command).2.queries commands).1 := rfl
    rw [hcons]
    rcases query_takes h hcues command with ⟨hnone, hstill⟩ | ⟨cue, later, rfl, hanswer, hstill⟩
    · rw [hnone]
      exact (ih hstill hcues).late
    · rw [hanswer]
      exact (ih hstill fun cue hcue => hcues cue (List.mem_cons_of_mem _ hcue)).next

/-- Commands without line feeds of their own reach the printer as its lines. -/
theorem received_queries (h : s.channel.Owes cues) (hcues : ∀ cue ∈ cues, cue.AnswersLine)
    (hwhole : s.channel.unfinished = []) {commands : List String}
    (hcommands : ∀ command ∈ commands, '\n' ∉ command.toList) :
    (s.queries commands).2.channel.received =
      s.channel.received ++ commands.map commandLine := by
  induction commands generalizing s cues with
  | nil => simp [queries]
  | cons command commands ih =>
    obtain ⟨due, rest, hcarries, -⟩ := id h
    have hwrite := hcarries.write_commandLine (hcommands command List.mem_cons_self)
    have hreceived : (s.query command).2.channel.received =
        s.channel.received ++ [commandLine command] := by
      rw [query_eq, Channel.received_readLine, hwrite, Channel.received_endLine, hwhole]
      rfl
    have hstill : (s.query command).2.channel.unfinished = [] := by
      rw [query_eq, Channel.unfinished_readLine, hwrite, Channel.unfinished_endLine]
    have hrest : ∀ c ∈ commands, '\n' ∉ c.toList := fun c hc => hcommands c (.tail _ hc)
    have hnext : (s.queries (command :: commands)).2.channel.received =
        (s.query command).2.channel.received ++ commands.map commandLine := by
      rcases query_takes h hcues command with ⟨-, howes⟩ | ⟨cue, later, rfl, -, howes⟩
      · exact ih howes hcues hstill hrest
      · exact ih howes (fun c hc => hcues c (List.mem_cons_of_mem _ hc)) hstill hrest
    rw [hnext, hreceived, List.map_cons, List.append_assoc, List.singleton_append]

/-- A printer that answers every line within the limit is heard by every query. -/
theorem queries_of_prompt (h : s.channel.Carries [] cues)
    (hcues : ∀ cue ∈ cues, cue.AnswersLine) (hwhole : s.channel.unfinished = [])
    {commands : List String} (hcommands : ∀ command ∈ commands, '\n' ∉ command.toList)
    (hlength : commands.length ≤ cues.length)
    (hprompt : ∀ cue ∈ cues, cue.delay ≤ s.limits.read.millis) :
    (s.queries commands).1 = (cues.take commands.length).map Cue.answer := by
  induction commands generalizing s cues with
  | nil => rfl
  | cons command commands ih =>
    cases cues with
    | nil => simp at hlength
    | cons cue cues =>
      have hcue : cue.AnswersLine := hcues cue List.mem_cons_self
      have hwrite := h.write_commandLine (hcommands command List.mem_cons_self)
      have hgrown : ({ s.channel with
          unfinished := s.channel.unfinished ++ commandLine command } : Channel).Carries []
            (cue :: cues) := ⟨h.peer, h.stays, h.arriving⟩
      have hsent := hgrown.endLine hcue
      rw [← hwrite] at hsent
      have htime : Channel.lastArrival (s.channel.now + cue.delay) s.channel.arriving ≤
          (s.channel.write (commandLine command)).now + s.limits.read.millis := by
        rw [h.arriving, hwrite, Channel.now_endLine]
        exact Nat.add_le_add_left (hprompt cue List.mem_cons_self) _
      obtain ⟨hheard, hstill⟩ := hsent.readLine hcue htime
      have hanswer : (s.query command).1 = cue.answer := by
        rw [query_eq, hheard, answer_bytes hcue]
      have hrest := ih (s := (s.query command).2) hstill
        (fun c hc => hcues c (.tail _ hc))
        (by rw [query_eq, Channel.unfinished_readLine, hwrite, Channel.unfinished_endLine])
        (fun c hc => hcommands c (.tail _ hc)) (Nat.le_of_succ_le_succ hlength)
        (fun c hc => hprompt c (.tail _ hc))
      have hcons : (s.queries (command :: commands)).1 =
          (s.query command).1 :: ((s.query command).2.queries commands).1 := rfl
      rw [hcons, hanswer, hrest]
      rfl

/-- The answers of a session with a printer that answers every line with a line, each after a time
of its own. An answer that is heard is the one to the line which stands as many places before the
query's own as queries before it have stopped waiting. So it is the query's own if none has; and it
always is with a printer that keeps to the limit. -/
theorem queries_in_order {cues : List Cue} (hcues : ∀ cue ∈ cues, cue.AnswersLine) (a : Address)
    (limits : Limits) (commands : List String) :
    let session : Session := ⟨a, limits, { peer := .script cues }⟩
    let answers := (session.queries commands).1
    answers.length = commands.length ∧
      (∀ (i : Nat) answer, answers[i]? = some answer → answer ≠ unheard →
        ∃ cue, cues[i - (answers.take i).count unheard]? = some cue ∧ answer = cue.answer) ∧
      (∀ (i : Nat) line, answers[i]? = some (.ok line) → (∀ j < i, answers[j]? ≠ some unheard) →
        ∃ cue, cues[i]? = some cue ∧ cue.answer = .ok line) ∧
      ((∀ command ∈ commands, '\n' ∉ command.toList) →
        (session.queries commands).2.channel.received = commands.map commandLine ∧
        (commands.length ≤ cues.length → (∀ cue ∈ cues, cue.delay ≤ limits.read.millis) →
          answers = (cues.take commands.length).map Cue.answer)) := by
  intro session answers
  have hcarries : session.channel.Carries [] cues := ⟨rfl, rfl, rfl⟩
  have howes : session.channel.Owes cues := ⟨[], cues, hcarries, rfl⟩
  have horder : InOrder cues answers := inOrder_queries howes hcues commands
  refine ⟨length_queries session commands, fun i answer => horder.getElem?, ?_, ?_⟩
  · intro i line hline hnone
    obtain ⟨cue, hcue, hanswer⟩ := horder.getElem? hline (by simp)
    have hcount : (answers.take i).count unheard = 0 := by
      rw [List.count_eq_zero]
      intro hmem
      obtain ⟨j, hj⟩ := List.mem_iff_getElem?.mp hmem
      rw [List.getElem?_take] at hj
      split at hj
      · next hlt => exact hnone j hlt hj
      · contradiction
    rw [hcount] at hcue
    exact ⟨cue, hcue, hanswer.symm⟩
  · intro hcommands
    refine ⟨received_queries howes hcues rfl hcommands, fun hlength hprompt => ?_⟩
    exact queries_of_prompt hcarries hcues rfl hcommands hlength hprompt

/-- Two answers, of which the first takes longer than the session below waits. -/
def tardyCues : List Cue :=
  [{ reply := Utf8.encode "first\n".toList, delay := 400 }, { reply := Utf8.encode "second\n".toList }]

/-- A session that waits 300 milliseconds for a line. -/
def tardySession : Session :=
  ⟨⟨"127.0.0.1", 9100⟩, .uniform (.ofMillis 300), { peer := .script tardyCues }⟩

theorem answersLine_tardyCues : ∀ cue ∈ tardyCues, cue.AnswersLine := by
  have hline : ∀ text : List Char, '\n' ∉ text → ∀ delay,
      ({ reply := Utf8.encode (text ++ ['\n']), delay } : Cue).AnswersLine := by
    intro text htext delay
    refine ⟨⟨Utf8.encode text, lineFeed_not_mem_encode htext, ?_⟩, rfl⟩
    rw [Utf8.encode, List.flatMap_append]
    rfl
  intro cue hcue
  simp only [tardyCues, List.mem_cons, List.not_mem_nil, or_false] at hcue
  rcases hcue with rfl | rfl
  · exact hline "first".toList (by decide) 400
  · exact hline "second".toList (by decide) 0

theorem queries_tardySession :
    (tardySession.queries ["~HI", "~HS"]).1 = [unheard, .ok "first"] := rfl

/-- The second query is given the answer to the line before its own. -/
theorem queries_in_order_tardy :
    (∀ cue ∈ tardyCues, cue.AnswersLine) ∧
      (tardySession.queries ["~HI", "~HS"]).1[1]? = some (.ok "first") ∧
        ∃ cue, tardyCues[0]? = some cue ∧ cue.answer = .ok "first" := by
  obtain ⟨-, hheard, -⟩ := queries_in_order answersLine_tardyCues tardySession.address
    tardySession.limits ["~HI", "~HS"]
  have hsecond : (tardySession.queries ["~HI", "~HS"]).1[1]? = some (.ok "first") := by
    rw [queries_tardySession]
    rfl
  obtain ⟨cue, hcue, hanswer⟩ := hheard 1 (.ok "first") hsecond (by simp)
  exact ⟨answersLine_tardyCues, hsecond, cue, hcue, hanswer.symm⟩

/-- A query that stops waiting leaves its answer to the next query, which takes it for its own. -/
theorem late_answer_answers_next_query :
    (∀ cue ∈ tardyCues, cue.AnswersLine) ∧
      ¬ ∀ (i : Nat) line, (tardySession.queries ["~HI", "~HS"]).1[i]? = some (.ok line) →
        ∃ cue, tardyCues[i]? = some cue ∧ cue.answer = .ok line := by
  refine ⟨answersLine_tardyCues, fun h => ?_⟩
  obtain ⟨cue, hcue, hanswer⟩ := h 1 "first" (by rw [queries_tardySession]; rfl)
  obtain rfl : ({ reply := Utf8.encode "second\n".toList } : Cue) = cue := Option.some.inj hcue
  have hsecond : ({ reply := Utf8.encode "second\n".toList } : Cue).answer = .ok "second" := rfl
  rw [hsecond] at hanswer
  exact absurd (Except.ok.inj hanswer) (by decide)

end Session

end LabelFleet.Printer
