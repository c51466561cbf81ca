import LabelFleet.Proofs.Printer.Replies

/-! What a printer owes its client, and what the client takes. A scripted printer that answers every
line with a line keeps its answers in the order of the lines, and a client that reads a line takes
the first of them as a whole or none at all. -/
namespace LabelFleet.Printer

/-- The printer answers a line with one line of its own and does not hang up. -/
structure Cue.AnswersLine (cue : Cue) : Prop where
  line : ∃ body, lineFeed ∉ body ∧ cue.reply = body ++ [lineFeed]
  stays : cue.hangsUp = false

theorem Cue.AnswersLine.reply_ne_nil {cue : Cue} (h : cue.AnswersLine) : cue.reply ≠ [] := by
  obtain ⟨body, -, hreply⟩ := h.line
  simp [hreply]

namespace Channel

variable {c : Channel} {due : List (Nat × Cue)} {rest cues : List Cue} {cue : Cue}

/-- The answers in `due` are on their way, each as a whole at its time, and those in `rest` are for
lines that are still to come. -/
structure Carries (c : Channel) (due : List (Nat × Cue)) (rest : List Cue) : Prop where
  peer : c.peer = .script rest
  stays : c.hungUp = none
  arriving : c.arriving = due.flatMap fun d => d.2.reply.map fun b => (d.1, b)

/-- The answers that the client has not taken are `cues`, in this order. -/
def Owes (c : Channel) (cues : List Cue) : Prop :=
  ∃ due rest, c.Carries due rest ∧ due.map Prod.snd ++ rest = cues

/-! ### Lines to the printer -/

@[simp] theorem received_endLine (c : Channel) :
    c.endLine.received = c.received ++ [c.unfinished] := by
  rw [endLine]
  split <;> rfl

@[simp] theorem unfinished_endLine (c : Channel) : c.endLine.unfinished = [] := by
  rw [endLine]
  split <;> rfl

@[simp] theorem now_endLine (c : Channel) : c.endLine.now = c.now := by
  rw [endLine]
  split <;> rfl

/-- A line that has arrived is answered behind all that has been answered before. -/
theorem Carries.endLine (h : c.Carries due (cue :: rest)) (hcue : cue.AnswersLine) :
    c.endLine.Carries (due ++ [(lastArrival (c.now + cue.delay) c.arriving, cue)]) rest := by
  have hline : c.endLine = ({ c with
      received := c.received ++ [c.unfinished]
      unfinished := []
      peer := .script rest } : Channel).follow cue := by
    rw [Channel.endLine, h.peer]
  rw [hline]
  refine ⟨rfl, ?_, ?_⟩
  · rw [follow, hcue.stays]
    exact h.stays
  · simp [follow, h.arriving]

/-- A printer that has nothing left to answer stays silent. -/
theorem Carries.endLine_nil (h : c.Carries due []) : c.endLine.Carries due [] := by
  have hline : c.endLine =
      { c with received := c.received ++ [c.unfinished], unfinished := [] } := by
    rw [Channel.endLine, h.peer]
  rw [hline]
  exact ⟨h.peer, h.stays, h.arriving⟩

theorem Owes.endLine (h : c.Owes cues) (hcues : ∀ cue ∈ cues, cue.AnswersLine) :
    c.endLine.Owes cues := by
  obtain ⟨due, rest, hcarries, rfl⟩ := h
  cases rest with
  | nil => exact ⟨due, [], hcarries.endLine_nil, rfl⟩
  | cons cue rest =>
    have hcue : cue.AnswersLine := hcues cue (by simp)
    exact ⟨_, rest, hcarries.endLine hcue, by simp⟩

theorem Owes.takeByte (h : c.Owes cues) (hcues : ∀ cue ∈ cues, cue.AnswersLine) (b : UInt8) :
    (c.takeByte b).Owes cues := by
  have hgrown : ({ c with unfinished := c.unfinished ++ [b] } : Channel).Owes cues := by
    obtain ⟨due, rest, hcarries, hcues⟩ := h
    exact ⟨due, rest, ⟨hcarries.peer, hcarries.stays, hcarries.arriving⟩, hcues⟩
  rw [Channel.takeByte]
  split
  · exact h
  · dsimp only
    split
    · exact hgrown.endLine hcues
    · exact hgrown

/-- Whatever is written, no answer is lost and none changes its place. -/
theorem Owes.write (h : c.Owes cues) (hcues : ∀ cue ∈ cues, cue.AnswersLine)
    (data : List UInt8) : (c.write data).Owes cues := by
  have hbytes : (data.foldl Channel.takeByte c).Owes cues := by
    induction data generalizing c with
    | nil => exact h
    | cons b data ih => exact ih (h.takeByte hcues b)
  obtain ⟨due, rest, hcarries, -⟩ := h
  rw [Channel.write, hcarries.peer]
  exact hbytes

theorem takeByte_of_ne (hstays : c.hungUp = none) {b : UInt8} (hb : b ≠ lineFeed) :
    c.takeByte b = { c with unfinished := c.unfinished ++ [b] } := by
  simp [takeByte, hstays, hb]

theorem takeByte_lineFeed (hstays : c.hungUp = none) : c.takeByte lineFeed =
    ({ c with unfinished := c.unfinished ++ [lineFeed] } : Channel).endLine := by
  simp [takeByte, hstays]

/-- Bytes without a line feed make the unfinished line longer. -/
theorem foldl_takeByte (hstays : c.hungUp = none) {data : List UInt8} (hdata : lineFeed ∉ data) :
    data.foldl takeByte c = { c with unfinished := c.unfinished ++ data } := by
  induction data generalizing c with
  | nil => simp
  | cons b data ih =>
    have hb : b ≠ lineFeed := fun hb => hdata (hb ▸ List.mem_cons_self)
    have hrest : lineFeed ∉ data := fun hmem => hdata (List.mem_cons_of_mem b hmem)
    rw [List.foldl_cons, takeByte_of_ne hstays hb,
      ih (c := { c with unfinished := c.unfinished ++ [b] }) hstays hrest]
    simp

/-- A command without a line feed of its own arrives as one line. -/
theorem Carries.write_commandLine (h : c.Carries due rest) {command : String}
    (hcommand : '\n' ∉ command.toList) : c.write (commandLine command) =
      ({ c with unfinished := c.unfinished ++ commandLine command } : Channel).endLine := by
  have hsplit : commandLine command = Utf8.encode command.toList ++ [lineFeed] := by
    rw [commandLine, Utf8.encode, List.flatMap_append]
    rfl
  have hwrite : c.write (commandLine command) = (commandLine command).foldl takeByte c := by
    rw [Channel.write, h.peer]
  have hbody := foldl_takeByte h.stays (lineFeed_not_mem_encode hcommand)
  rw [hwrite, hsplit, List.foldl_append, hbody, List.foldl_cons, List.foldl_nil,
    takeByte_lineFeed (by exact h.stays)]
  simp

/-! ### Lines from the printer -/

/-- A wait takes bytes off what is arriving and lets time pass. -/
theorem exists_readLine (c : Channel) (limit : Nat) :
    ∃ arriving now, (c.readLine limit).2 = { c with arriving, now } := by
  rw [readLine]
  split
  · exact ⟨_, _, rfl⟩
  · split
    · split <;> exact ⟨_, _, rfl⟩
    · exact ⟨_, _, rfl⟩

@[simp] theorem received_readLine (c : Channel) (limit : Nat) :
    (c.readLine limit).2.received = c.received := by
  obtain ⟨arriving, now, h⟩ := c.exists_readLine limit
  rw [h]

@[simp] theorem unfinished_readLine (c : Channel) (limit : Nat) :
    (c.readLine limit).2.unfinished = c.unfinished := by
  obtain ⟨arriving, now, h⟩ := c.exists_readLine limit
  rw [h]

@[simp] theorem peer_readLine (c : Channel) (limit : Nat) : (c.readLine limit).2.peer = c.peer := by
  obtain ⟨arriving, now, h⟩ := c.exists_readLine limit
  rw [h]

theorem splitLine?_reply (hcue : cue.AnswersLine) (time : Nat) (more : List (Nat × UInt8)) :
    splitLine? ((cue.reply.map fun b => (time, b)) ++ more) =
      some (cue.reply.map fun b => (time, b), more) := by
  obtain ⟨body, hbody, hreply⟩ := hcue.line
  have hfront : ∀ b ∈ body.map fun b => (time, b), b.2 ≠ lineFeed := by
    intro b hb hfeed
    obtain ⟨b', hb', rfl⟩ := List.mem_map.mp hb
    exact hbody (hfeed ▸ hb')
  rw [hreply, List.map_append, List.append_assoc]
  exact splitLine?_append hfront time more

/-- An answer that comes in time is taken as a whole, and nothing else is. -/
theorem Carries.readLine {time limit : Nat} (h : c.Carries ((time, cue) :: due) rest)
    (hcue : cue.AnswersLine) (htime : time ≤ c.now + limit) :
    (c.readLine limit).1 = .bytes cue.reply ∧ (c.readLine limit).2.Carries due rest := by
  have harrived : c.arriving.takeWhile (·.1 ≤ c.now + limit) =
      (cue.reply.map fun b => (time, b)) ++
        (due.flatMap fun d => d.2.reply.map fun b => (d.1, b)).takeWhile
          (·.1 ≤ c.now + limit) := by
    rw [h.arriving, List.flatMap_cons, List.takeWhile_append_of_pos]
    intro b hb
    obtain ⟨b', -, rfl⟩ := List.mem_map.mp hb
    exact decide_eq_true htime
  have hlater : c.arriving.dropWhile (·.1 ≤ c.now + limit) =
      (due.flatMap fun d => d.2.reply.map fun b => (d.1, b)).dropWhile (·.1 ≤ c.now + limit) := by
    rw [h.arriving, List.flatMap_cons, List.dropWhile_append_of_pos]
    intro b hb
    obtain ⟨b', -, rfl⟩ := List.mem_map.mp hb
    exact decide_eq_true htime
  rw [Channel.readLine]
  simp only [harrived, hlater, splitLine?_reply hcue, List.takeWhile_append_dropWhile]
  refine ⟨by simp [Function.comp_def], h.peer, h.stays, rfl⟩

/-- While the first answer has not come, nothing is heard, and nothing is lost. -/
theorem Carries.readLine_of_late (h : c.Carries due rest) (limit : Nat)
    (hdue : ∀ d ∈ due.head?, d.2.AnswersLine ∧ c.now + limit < d.1) :
    (c.readLine limit).1 = .silence ∧ (c.readLine limit).2.Carries due rest := by
  have hfirst : ∀ b ∈ c.arriving.head?, c.now + limit < b.1 := by
    rw [h.arriving]
    cases due with
    | nil => simp
    | cons d due =>
      obtain ⟨hline, hlate⟩ := hdue d rfl
      obtain ⟨b, bytes, hreply⟩ := List.exists_cons_of_ne_nil hline.reply_ne_nil
      intro b' hb'
      rw [List.flatMap_cons, hreply] at hb'
      obtain rfl : (d.1, b) = b' := Option.some.inj hb'
      exact hlate
  have hnone : c.arriving.takeWhile (·.1 ≤ c.now + limit) = [] ∧
      c.arriving.dropWhile (·.1 ≤ c.now + limit) = c.arriving := by
    cases harriving : c.arriving with
    | nil => exact ⟨rfl, rfl⟩
    | cons b bytes =>
      have hb := hfirst b (by rw [harriving]; rfl)
      have hnot : ¬ decide (b.1 ≤ c.now + limit) = true := by
        rw [decide_eq_true_iff]
        omega
      exact ⟨List.takeWhile_cons_of_neg hnot, List.dropWhile_cons_of_neg hnot⟩
  have hread : c.readLine limit = (.silence, { c with now := c.now + limit }) := by
    rw [Channel.readLine, hnone.1, hnone.2]
    simp only [splitLine?, h.stays]
  rw [hread]
  exact ⟨rfl, h.peer, h.stays, h.arriving⟩

/-- A wait for a line takes the first answer that is owed, or none. -/
theorem Owes.readLine (h : c.Owes cues) (hcues : ∀ cue ∈ cues, cue.AnswersLine) (limit : Nat) :
    (c.readLine limit).1 = .silence ∧ (c.readLine limit).2.Owes cues ∨
      ∃ cue later, cues = cue :: later ∧ (c.readLine limit).1 = .bytes cue.reply ∧
        (c.readLine limit).2.Owes later := by
  obtain ⟨due, rest, hcarries, rfl⟩ := h
  cases due with
  | nil =>
    obtain ⟨hsilence, hstill⟩ := hcarries.readLine_of_late limit (by simp)
    exact .inl ⟨hsilence, [], rest, hstill, rfl⟩
  | cons d due =>
    have hline : d.2.AnswersLine := hcues d.2 (by simp)
    by_cases htime : d.1 ≤ c.now + limit
    · obtain ⟨hheard, hstill⟩ := hcarries.readLine hline htime
      exact .inr ⟨d.2, due.map Prod.snd ++ rest, rfl, hheard, due, rest, hstill, rfl⟩
    · have hlate : ∀ e ∈ (d :: due).head?, e.2.AnswersLine ∧ c.now + limit < e.1 := by
        intro e he
        obtain rfl : d = e := Option.some.inj he
        exact ⟨hline, Nat.lt_of_not_le htime⟩
      obtain ⟨hsilence, hstill⟩ := hcarries.readLine_of_late limit hlate
      exact .inl ⟨hsilence, d :: due, rest, hstill, rfl⟩

end Channel

end LabelFleet.Printer
