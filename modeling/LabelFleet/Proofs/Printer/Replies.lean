import LabelFleet.Printer.Session
import LabelFleet.Proofs.Printer.History
import LabelFleet.Proofs.Printer.ReplyLines
import LabelFleet.Proofs.Printer.SettingsLine
import LabelFleet.Proofs.Text.Bytes
import LabelFleet.Proofs.Text.Encoding

/-! A client and an emulated printer understand each other: every reply is one line, the client
reads it as one line, and finds in it what the printer has to tell. -/
namespace LabelFleet.Printer

/-! ### One line -/

/-- The text holds one line feed, at its end. -/
def IsLine (s : List Char) : Prop := ∃ line, s = line ++ ['\n'] ∧ '\n' ∉ line

theorem splitLine?_append {front : List (Nat × UInt8)} (hfront : ∀ b ∈ front, b.2 ≠ lineFeed)
    (time : Nat) (rest : List (Nat × UInt8)) :
    splitLine? (front ++ (time, lineFeed) :: rest) = some (front ++ [(time, lineFeed)], rest) := by
  induction front with
  | nil => exact if_pos rfl
  | cons b front ih =>
    have hrest := ih fun b hb => hfront b (List.mem_cons_of_mem _ hb)
    rw [List.cons_append, splitLine?, if_neg (hfront b List.mem_cons_self), hrest]
    rfl

theorem lineFeed_not_mem_encode {s : List Char} (h : '\n' ∉ s) : lineFeed ∉ Utf8.encode s := by
  intro hmem
  obtain ⟨c, hc, hb⟩ := List.mem_flatMap.mp hmem
  have hcode := (Text.utf8EncodeChar_eq_singleton_of_mem hb (by decide)).2
  have hfeed : c = '\n' := Char.ext (UInt32.toNat_inj.mp hcode)
  exact h (hfeed ▸ hc)

/-- The bytes of a line are what is split off first. -/
theorem IsLine.splitLine?_eq {s : List Char} (h : IsLine s) {sent : List (Nat × UInt8)}
    (hsent : sent.map Prod.snd = Utf8.encode s) (rest : List (Nat × UInt8)) :
    splitLine? (sent ++ rest) = some (sent, rest) := by
  obtain ⟨line, rfl, hline⟩ := h
  have hbytes : sent.map Prod.snd = Utf8.encode line ++ [lineFeed] := by
    rw [hsent, Utf8.encode, List.flatMap_append]
    rfl
  obtain ⟨front, last, rfl, hfront, hlast⟩ := List.map_eq_append_iff.mp hbytes
  obtain ⟨⟨time, byte⟩, rfl, rfl⟩ := List.map_eq_singleton_iff.mp hlast
  have hnofeed : ∀ b ∈ front, b.2 ≠ lineFeed := by
    intro b hb hfeed
    apply lineFeed_not_mem_encode hline
    rw [← hfront, ← hfeed]
    exact List.mem_map_of_mem hb
  rw [List.append_assoc]
  exact splitLine?_append hnofeed time rest

/-- A client that waits long enough reads a line as a whole, whatever follows it. -/
theorem IsLine.readLine_eq {s : List Char} (h : IsLine s) {c : Channel} {limit : Nat}
    {sent rest : List (Nat × UInt8)} (harriving : c.arriving = sent ++ rest)
    (hsent : sent.map Prod.snd = Utf8.encode s) (htime : ∀ b ∈ sent, b.1 ≤ c.now + limit) :
    (c.readLine limit).1 = .bytes (Utf8.encode s) := by
  have harrived : c.arriving.takeWhile (·.1 ≤ c.now + limit) =
      sent ++ rest.takeWhile (·.1 ≤ c.now + limit) := by
    rw [harriving, List.takeWhile_append_of_pos]
    exact fun b hb => decide_eq_true (htime b hb)
  rw [Channel.readLine]
  simp only [harrived, h.splitLine?_eq hsent, hsent]

/-- Reading a line takes it off what has arrived, and nothing else. -/
theorem IsLine.readLine_snd {s : List Char} (h : IsLine s) {c : Channel} {limit : Nat}
    {sent rest : List (Nat × UInt8)} (harriving : c.arriving = sent ++ rest)
    (hsent : sent.map Prod.snd = Utf8.encode s) (htime : ∀ b ∈ sent, b.1 ≤ c.now + limit) :
    (c.readLine limit).2 = { c with arriving := rest, now := Channel.lastArrival c.now sent } := by
  have harrived : c.arriving.takeWhile (·.1 ≤ c.now + limit) =
      sent ++ rest.takeWhile (·.1 ≤ c.now + limit) := by
    rw [harriving, List.takeWhile_append_of_pos]
    exact fun b hb => decide_eq_true (htime b hb)
  have hlater : c.arriving.dropWhile (·.1 ≤ c.now + limit) =
      rest.dropWhile (·.1 ≤ c.now + limit) := by
    rw [harriving, List.dropWhile_append_of_pos]
    exact fun b hb => decide_eq_true (htime b hb)
  rw [Channel.readLine]
  simp only [harrived, hlater, h.splitLine?_eq hsent, List.takeWhile_append_dropWhile]

theorem trim_withoutLineEnd (s : List Char) : Text.trim (withoutLineEnd s) = Text.trim s := by
  have hsplit : s = withoutLineEnd s ++ (s.reverse.takeWhile isLineEnd).reverse := by
    rw [withoutLineEnd, ← List.reverse_append, List.takeWhile_append_dropWhile,
      List.reverse_reverse]
  have hblank : ∀ c ∈ (s.reverse.takeWhile isLineEnd).reverse, Text.isBlank c = true := by
    intro c hc
    have hend := List.mem_takeWhile_imp (List.mem_reverse.mp hc)
    rw [isLineEnd, Bool.or_eq_true, beq_iff_eq, beq_iff_eq] at hend
    rcases hend with rfl | rfl <;> decide
  conv_rhs => rw [hsplit]
  rw [Text.trim_append_of_blank _ hblank]

theorem IsLine.encode_ne_nil {s : List Char} (h : IsLine s) : Utf8.encode s ≠ [] := by
  obtain ⟨line, rfl, -⟩ := h
  simp [Utf8.encode]

theorem IsLine.answer_eq {s : List Char} (h : IsLine s) :
    (Heard.bytes (Utf8.encode s)).answer = .ok (String.ofList (withoutLineEnd s)) := by
  obtain ⟨b, bytes, hcons⟩ := List.exists_cons_of_ne_nil h.encode_ne_nil
  have htext : (Heard.bytes (b :: bytes)).answer = lineText (b :: bytes) := rfl
  rw [hcons, htext, ← hcons, lineText, Utf8.decode_encode]

/-- Whatever is looked for in a reply, both texts tell the same. -/
structure ReadsAlike (s t : List Char) : Prop where
  identity : (Identity.parse s).toOption = (Identity.parse t).toOption
  status : (Status.parse s).toOption = (Status.parse t).toOption
  settings : Settings.parse s = Settings.parse t

/-- Blanks at the ends of a reply do not count. -/
theorem readsAlike_of_trim {s t : List Char} (h : Text.trim s = Text.trim t) : ReadsAlike s t := by
  constructor
  · rw [Identity.parse, Identity.parse, fields_congr h]
    split <;> rfl
  · rw [Status.parse, Status.parse, fields_congr h]
    split <;> rfl
  · rw [Settings.parse, Settings.parse, h]

namespace Request

/-- A chunk that begins with a question asks it, whatever stands behind it. -/
theorem ofChunk_eq_of_prefix {chunk : List Char} :
    ("~HI".toList <+: chunk → ofChunk chunk = .identity) ∧
      ("~HS".toList <+: chunk → ofChunk chunk = .status) ∧
      ("^WD".toList <+: chunk → ofChunk chunk = .settings) := by
  unfold ofChunk
  simp only [Text.begins_iff, Text.occurs_iff]
  -- Of beginnings of one length a text has only one.
  refine ⟨fun h => ?_, fun h => ?_, fun h => ?_⟩
  · rw [if_neg (not_prefix_of_ne (by decide) (by decide) h),
      if_neg (not_prefix_of_ne (by decide) (by decide) h), if_pos h]
  · rw [if_neg (not_prefix_of_ne (by decide) (by decide) h),
      if_neg (not_prefix_of_ne (by decide) (by decide) h),
      if_neg (not_prefix_of_ne (by decide) (by decide) h), if_pos h]
  · rw [if_neg (not_prefix_of_ne (by decide) (by decide) h),
      if_neg (not_prefix_of_ne (by decide) (by decide) h),
      if_neg (not_prefix_of_ne (by decide) (by decide) h),
      if_neg (not_prefix_of_ne (by decide) (by decide) h), if_pos h]

end Request

namespace Emulator

variable {e : Emulator}

theorem isLine_completedLine (jobs : Nat) : IsLine (completedLine jobs).toList := by
  refine ⟨"JOB COMPLETED: ".toList ++ Digits.ofNat jobs, ?_, ?_⟩
  · rw [completedLine, Digits.text]
    simp [toString]
  · rw [List.mem_append, not_or]
    exact ⟨by decide, Digits.not_mem_ofNat rfl jobs⟩

theorem isLine_identityLine (hname : Plain e.name) (hmodel : Plain e.model) :
    IsLine e.identityLine.toList := by
  refine ⟨_, e.toList_identityLine, ?_⟩
  have hstate := e.state.not_mem_name (c := '\n') (by decide)
  simp [List.intercalate, hname.lineFeed, hmodel.lineFeed, hstate]

theorem isLine_statusLine : IsLine e.statusLine.toList := by
  refine ⟨_, e.toList_statusLine, ?_⟩
  have hstate := e.state.not_mem_name (c := '\n') (by decide)
  have hjobs := Digits.not_mem_ofNat (c := '\n') rfl e.jobs.toNat
  simp [List.intercalate, Status.values, status, hstate, hjobs]

theorem isLine_settingsLine : IsLine e.settingsLine.toList := by
  refine ⟨_, e.toList_settingsLine, ?_⟩
  intro hmem
  exact absurd (Settings.le_toNat_of_mem_object e.settingsMembers_ne_nil
    (fun _ hm _ hc => e.le_toNat_of_mem_settingsMembers hm hc) hmem) (by decide)

/-- Every reply is one line if name and model are plain. -/
theorem isLine_of_reply (hname : Plain e.name) (hmodel : Plain e.model) {chunk reply : String}
    (h : (e.respond chunk).2 = some reply) : IsLine reply.toList := by
  change e.reply (Request.ofChunk chunk.toList) = some reply at h
  generalize Request.ofChunk chunk.toList = request at h
  cases request with
  | opening => contradiction
  | completing => exact Option.some.inj h ▸ isLine_completedLine _
  | identity => exact Option.some.inj h ▸ isLine_identityLine hname hmodel
  | status => exact Option.some.inj h ▸ isLine_statusLine
  | settings => exact Option.some.inj h ▸ isLine_settingsLine
  | ping => exact Option.some.inj h ▸ ⟨"PONG".toList, rfl, by decide⟩
  | other => exact Option.some.inj h ▸ ⟨"OK".toList, rfl, by decide⟩

/-! ### What is read -/

theorem reply_respond {chunk : String} {request : Request}
    (h : Request.ofChunk chunk.toList = request) : (e.respond chunk).2 = e.reply request := by
  rw [← h]
  rfl

/-- Whatever an emulated printer has been through, its answers are understood: the status and the
settings always, the identity if name and model are plain. Then every answer is one line, and a
client that reads the line reads the answer. -/
theorem run_replies (name model : String) (history : List Operation) :
    let e := ({ name, model } : Emulator).run history
    (∀ chunk : String, "~HS".toList <+: chunk.toList → ∃ reply, (e.respond chunk).2 = some reply ∧
      Status.parse reply.toList = .ok { state := e.state, jobs := e.jobs.toNat }) ∧
    (∀ chunk : String, "^WD".toList <+: chunk.toList → ∃ reply, (e.respond chunk).2 = some reply ∧
      Settings.parse reply.toList = .ok
        { name, model, dpi := 203, width := 4.0, length := 6.0, darkness := 10, speed := 2 }) ∧
    (Plain name → Plain model →
      (∀ chunk : String, "~HI".toList <+: chunk.toList →
        ∃ reply, (e.respond chunk).2 = some reply ∧
          Identity.parse reply.toList =
            .ok { name, model, firmware := "V1.0", serial := "12345", state := e.state }) ∧
      ∀ chunk reply : String, (e.respond chunk).2 = some reply → IsLine reply.toList ∧
        ∀ (c : Channel) (limit : Nat) (sent rest : List (Nat × UInt8)),
          c.arriving = sent ++ rest → sent.map Prod.snd = Utf8.encode reply.toList →
          (∀ b ∈ sent, b.1 ≤ c.now + limit) →
          ∃ line, (c.readLine limit).1.answer = .ok line ∧
            line.toList = withoutLineEnd reply.toList ∧ ReadsAlike line.toList reply.toList) := by
  intro e
  have hfollows : Follows name model history e := follows_run name model history
  have hname : e.name = name := hfollows.name_eq
  have hmodel : e.model = model := hfollows.model_eq
  refine ⟨?_, ?_, ?_⟩
  · intro chunk hchunk
    exact ⟨_, reply_respond (Request.ofChunk_eq_of_prefix.2.1 hchunk), e.parse_statusLine⟩
  · intro chunk hchunk
    refine ⟨_, reply_respond (Request.ofChunk_eq_of_prefix.2.2 hchunk), ?_⟩
    rw [parse_settingsLine, hname, hmodel]
  · intro hplainName hplainModel
    rw [← hname] at hplainName
    rw [← hmodel] at hplainModel
    constructor
    · intro chunk hchunk
      refine ⟨_, reply_respond (Request.ofChunk_eq_of_prefix.1 hchunk), ?_⟩
      rw [parse_identityLine hplainName hplainModel, identity, hname, hmodel]
    · intro chunk reply hreply
      have hline : IsLine reply.toList := isLine_of_reply hplainName hplainModel hreply
      refine ⟨hline, ?_⟩
      intro c limit sent rest harriving hsent htime
      refine ⟨String.ofList (withoutLineEnd reply.toList), ?_, ?_, ?_⟩
      · rw [hline.readLine_eq harriving hsent htime, hline.answer_eq]
      · rw [String.toList_ofList]
      · rw [String.toList_ofList]
        exact readsAlike_of_trim (trim_withoutLineEnd reply.toList)

/-- A printer with quotes and a backslash in its name, after one label and the start of another. -/
theorem run_replies_quoted :
    let e := ({ name := "Dock \"3\" \\ é", model := "ZT230" } : Emulator).run
      [.send "^XA^FDx^FS^XZ", .send "^XA"]
    (∃ reply, (e.respond "~HS\n").2 = some reply ∧
      Status.parse reply.toList = .ok { state := .printing, jobs := 1 }) ∧
    (∃ reply, (e.respond "^WD\n").2 = some reply ∧ Settings.parse reply.toList =
      .ok ⟨"Dock \"3\" \\ é", "ZT230", 203, 4.0, 6.0, 10, 2⟩) ∧
    ∃ reply, (e.respond "~HI\n").2 = some reply ∧
      Identity.parse reply.toList = .ok ⟨"Dock \"3\" \\ é", "ZT230", "V1.0", "12345", .printing⟩ ∧
      ∃ line, (Channel.readLine
        { peer := .emulator e, arriving := (Utf8.encode reply.toList).map fun b => (7, b) }
        500).1.answer = .ok line ∧ ReadsAlike line.toList reply.toList := by
  intro e
  obtain ⟨hstatus, hsettings, hidentity⟩ := run_replies "Dock \"3\" \\ é" "ZT230"
    [.send "^XA^FDx^FS^XZ", .send "^XA"]
  have hname : Plain "Dock \"3\" \\ é" :=
    ⟨by decide, by decide, Text.unpadded_of_ends (by decide) (by decide)⟩
  have hmodel : Plain "ZT230" :=
    ⟨by decide, by decide, Text.unpadded_of_ends (by decide) (by decide)⟩
  obtain ⟨hidentity, hread⟩ := hidentity hname hmodel
  refine ⟨hstatus "~HS\n" (by decide), hsettings "^WD\n" (by decide), ?_⟩
  obtain ⟨reply, hreply, hparse⟩ := hidentity "~HI\n" (by decide)
  refine ⟨reply, hreply, hparse, ?_⟩
  obtain ⟨line, hline, -, halike⟩ := (hread "~HI\n" reply hreply).2
    { peer := .emulator e, arriving := (Utf8.encode reply.toList).map fun b => (7, b) } 500
    ((Utf8.encode reply.toList).map fun b => (7, b)) [] (List.append_nil _).symm
    (by rw [List.map_map]; exact List.map_id _) (by simp)
  exact ⟨line, hline, halike⟩

end Emulator

end LabelFleet.Printer
