import LabelFleet.Proofs.Printer.Chunks
import LabelFleet.Proofs.Printer.Sessions

/-! Exchanges with an emulated printer over a line of their own. A short command reaches the printer
as one chunk and its reply comes back as one line; an interview finds everything that the printer
has to tell and leaves nothing but its last question behind. -/
namespace LabelFleet.Printer

/-! ### Chunks -/

theorem chunks_of_length_le {bytes : List UInt8} (hne : bytes ≠ [])
    (h : bytes.length ≤ Emulator.chunkSize) : chunks bytes = [bytes] := by
  cases bytes with
  | nil => contradiction
  | cons b bytes =>
    have hrest : bytes.length ≤ Emulator.chunkSize - 1 := Nat.le_pred_of_lt h
    rw [chunks, List.take_of_length_le hrest, List.drop_of_length_le hrest, chunks]

/-- A printer that takes bytes in chunks hears no more labels end than do. -/
theorem heard_chunks_le (bytes : List UInt8) : heard (chunks bytes) ≤ closings bytes := by
  have h := heard_le_closings (chunks bytes)
  rwa [flatten_chunks] at h

namespace Emulator

theorem jobs_receiveAll (e : Emulator) (cs : List (List UInt8)) :
    (e.receiveAll cs).1.jobs = e.jobs + UInt64.ofNat (heard cs) := by
  induction cs generalizing e with
  | nil => exact (UInt64.add_zero e.jobs).symm
  | cons chunk cs ih =>
    have hnext : (e.receiveAll (chunk :: cs)).1 =
        ((e.respond (chunkText chunk)).1.receiveAll cs).1 := rfl
    have hcount : heard (chunk :: cs) = heard [chunk] + heard cs := heard_append [chunk] cs
    rw [hnext, ih, jobs_respond, hcount, heard_singleton, UInt64.ofNat_add, ← UInt64.add_assoc]
    simp only [completes_chunkText_iff]
    split
    · rfl
    · exact congrArg (· + _) (UInt64.add_zero e.jobs).symm

/-- A short text is taken at once. -/
theorem receiveAll_chunks_encode (e : Emulator) {s : List Char} (hne : s ≠ [])
    (hshort : (Utf8.encode s).length ≤ chunkSize) :
    e.receiveAll (chunks (Utf8.encode s)) =
      ((e.respond (String.ofList s)).1, ((e.respond (String.ofList s)).2.getD "").toList) := by
  have hbytes : Utf8.encode s ≠ [] := by
    obtain ⟨c, s, rfl⟩ := List.exists_cons_of_ne_nil hne
    intro h
    have htext := Utf8.decode_encode (c :: s)
    rw [h] at htext
    cases htext
  have htext : e.receive (Utf8.encode s) = e.respond (String.ofList s) := by
    rw [receive, Utf8.lossy_encode]
  rw [chunks_of_length_le hbytes hshort, receiveAll, htext]
  simp [receiveAll]

end Emulator

namespace Channel

variable {c : Channel} {e : Emulator}

/-- A line to an emulated printer on which nothing is under way. -/
structure Idle (c : Channel) (e : Emulator) : Prop where
  peer : c.peer = .emulator e
  arriving : c.arriving = []
  unfinished : c.unfinished = []

theorem idle_new (e : Emulator) : ({ peer := .emulator e } : Channel).Idle e := ⟨rfl, rfl, rfl⟩

theorem finish_of_unfinished (h : c.unfinished = []) : c.finish = c := by
  rw [finish, h]
  rfl

/-- All that the printer replies arrives at once. -/
theorem Idle.write_eq (h : c.Idle e) (data : List UInt8) : c.write data =
    { c with
      peer := .emulator (e.receiveAll (chunks data)).1
      arriving := (Utf8.encode (e.receiveAll (chunks data)).2).map fun b => (c.now, b) } := by
  rw [write, h.peer]
  simp [follow, h.arriving, lastArrival]

/-- A command that is answered brings its reply as one line, and then nothing is under way. -/
theorem Idle.exchange (h : c.Idle e) {command reply : String}
    (hshort : (commandLine command).length ≤ Emulator.chunkSize)
    (hreply : (e.respond (String.ofList (command.toList ++ ['\n']))).2 = some reply)
    (hline : IsLine reply.toList) (limit : Nat) :
    ((c.write (commandLine command)).readLine limit).1 = .bytes (Utf8.encode reply.toList) ∧
      ((c.write (commandLine command)).readLine limit).2.Idle
        (e.respond (String.ofList (command.toList ++ ['\n']))).1 := by
  have hreceive := e.receiveAll_chunks_encode (s := command.toList ++ ['\n']) (by simp) hshort
  rw [← commandLine, hreply] at hreceive
  have harriving : (c.write (commandLine command)).arriving =
      ((Utf8.encode reply.toList).map fun b => (c.now, b)) ++ [] := by
    rw [h.write_eq, hreceive, List.append_nil]
    rfl
  have hsent : ((Utf8.encode reply.toList).map fun b => (c.now, b)).map Prod.snd =
      Utf8.encode reply.toList := by
    rw [List.map_map]
    exact List.map_id _
  have htime : ∀ b ∈ (Utf8.encode reply.toList).map fun b => (c.now, b),
      b.1 ≤ (c.write (commandLine command)).now + limit := by
    intro b hb
    obtain ⟨b, -, rfl⟩ := List.mem_map.mp hb
    rw [h.write_eq]
    exact Nat.le_add_right c.now limit
  refine ⟨hline.readLine_eq harriving hsent htime, ?_⟩
  rw [hline.readLine_snd harriving hsent htime, h.write_eq, hreceive]
  exact ⟨rfl, rfl, h.unfinished⟩

end Channel

/-! ### Sessions -/

namespace Session

variable {s : Session} {e : Emulator}

/-- A query of an emulated printer is answered with the line of its reply. -/
theorem query_emulated (h : s.channel.Idle e) {command reply : String}
    (hshort : (commandLine command).length ≤ Emulator.chunkSize)
    (hreply : (e.respond (String.ofList (command.toList ++ ['\n']))).2 = some reply)
    (hline : IsLine reply.toList) :
    (s.query command).1 = .ok (String.ofList (withoutLineEnd reply.toList)) ∧
      (s.query command).2.channel.Idle
        (e.respond (String.ofList (command.toList ++ ['\n']))).1 := by
  obtain ⟨hheard, hidle⟩ := h.exchange hshort hreply hline s.limits.read.millis
  rw [query_eq]
  exact ⟨by rw [hheard, hline.answer_eq], hidle⟩

end Session

/-! ### Interviews -/

namespace Emulator

/-- A question changes nothing of a printer but the command that it remembers. -/
theorem respond_question (e : Emulator) {chunk : String} {request : Request}
    (h : Request.ofChunk chunk.toList = request)
    (hquestion : request ∈ [Request.identity, .status, .settings]) :
    e.respond chunk = ({ e with lastCommand := some chunk }, e.reply request) := by
  rw [respond, h]
  simp only [List.mem_cons, List.not_mem_nil, or_false] at hquestion
  rcases hquestion with rfl | rfl | rfl <;> rfl

/-- What an emulated printer tells about itself. -/
def info (e : Emulator) : Info where
  identity := ⟨e.name, e.model, "V1.0", "12345", e.state⟩
  status := ⟨e.state, e.jobs.toNat⟩
  settings := ⟨e.name, e.model, 203, 4.0, 6.0, 10, 2⟩

end Emulator

section Asking

variable {δ ε σ α β : Type} {s : Session} {e : Emulator}

theorem run_bind_of_ok {x : ExceptT ε (StateM σ) α} {f : α → ExceptT ε (StateM σ) β}
    {state next : σ} {a : α} (h : x.run state = (.ok a, next)) :
    (x >>= f).run state = (f a).run next := by
  change (match x.run state with
    | (answer, next) => (match answer with
      | .ok a => (f a).run
      | .error e => pure (.error e) : StateM σ (Except ε β)) next) = _
  rw [h]

/-- A question to an emulated printer is answered with what the printer replies. -/
theorem run_asking_emulated (h : s.channel.Idle e) (command : String) {reply : String}
    (request : Request) (hshort : (commandLine command).length ≤ Emulator.chunkSize)
    (hrequest : Request.ofChunk (command.toList ++ ['\n']) = request)
    (hquestion : request ∈ [Request.identity, .status, .settings])
    (hreply : e.reply request = some reply) (hline : IsLine reply.toList)
    (read : List Char → Except δ α) (toError : δ → PrinterError) {a : α}
    (hread : (read (withoutLineEnd reply.toList)).toOption = some a) :
    ∃ next, (do MonadExcept.ofExcept ((read (← Session.asking command).toList).mapError toError) :
        ExceptT PrinterError (StateM Session) α).run s = (.ok a, next) ∧
      next.channel.Idle
        { e with lastCommand := some (String.ofList (command.toList ++ ['\n'])) } := by
  rw [← String.toList_ofList (l := command.toList ++ ['\n'])] at hrequest
  have hrespond := e.respond_question hrequest hquestion
  rw [hreply] at hrespond
  obtain ⟨hanswer, hidle⟩ :=
    Session.query_emulated h hshort (congrArg Prod.snd hrespond) hline
  rw [hrespond] at hidle
  have hask : (Session.asking command).run s =
      (.ok (String.ofList (withoutLineEnd reply.toList)), (s.query command).2) :=
    Prod.ext hanswer rfl
  refine ⟨_, ?_, hidle⟩
  rw [run_bind_of_ok hask, String.toList_ofList]
  revert hread
  cases read (withoutLineEnd reply.toList) with
  | ok b =>
    intro hread
    rw [Option.some.inj hread]
    rfl
  | error _ => exact fun hread => nomatch hread

end Asking

/-- An interview with an emulated printer of a plain name and model tells what the printer is, how
many labels it has finished and its settings. It changes nothing but the last command. -/
theorem interview_emulated {s : Session} {e : Emulator} (h : s.channel.Idle e)
    (hname : Plain e.name) (hmodel : Plain e.model) :
    ∃ next, (interview Session.asking).run s = (.ok e.info, next) ∧
      next.channel.Idle { e with lastCommand := some "^WD\n" } := by
  have alike (t : List Char) : ReadsAlike (withoutLineEnd t) t :=
    readsAlike_of_trim (trim_withoutLineEnd t)
  obtain ⟨s₁, hrun₁, h₁⟩ := run_asking_emulated h hostIdentification .identity
    (by decide) (by decide) (by decide) rfl
    (Emulator.isLine_identityLine hname hmodel) Identity.parse ReplyFault.toError
    (by rw [(alike _).identity, Emulator.parse_identityLine hname hmodel]; rfl)
  obtain ⟨s₂, hrun₂, h₂⟩ := run_asking_emulated h₁ hostStatus .status
    (by decide) (by decide) (by decide) rfl
    Emulator.isLine_statusLine Status.parse ReplyFault.toError
    (by rw [(alike _).status, Emulator.parse_statusLine]; rfl)
  obtain ⟨s₃, hrun₃, h₃⟩ := run_asking_emulated h₂ configDump .settings
    (by decide) (by decide) (by decide) rfl
    Emulator.isLine_settingsLine Settings.parse Settings.Fault.toError
    (by rw [(alike _).settings, Emulator.parse_settingsLine]; rfl)
  refine ⟨s₃, ?_, h₃⟩
  have hidentity : (askIdentity Session.asking).run s = _ := hrun₁
  have hstatus : (askStatus Session.asking).run s₁ = _ := hrun₂
  have hsettings : (askSettings Session.asking).run s₂ = _ := hrun₃
  rw [interview, run_bind_of_ok hidentity, run_bind_of_ok hstatus, run_bind_of_ok hsettings]
  rfl

end LabelFleet.Printer
