import PirMesh.Library.Run
import PirMesh.Phone.CommandList

/-! # Phone — The life of a command

A command waits for its block on the message queue, then it may be in the list and have a timer and
blocks on the main queue, until a result or a cancel ends it.  `InTurn` lets no event bring a result
while a block about its command is under way; the invariant is kept for each command on its own
(`Inv`), and an event leaves the commands it does not find as they are (`Inv.frame`). -/

namespace PirMesh.MeshLib

open History LowerTransport Run

/-! ### The life of a command -/

/-- The message answers a command: it has the response opcode, or its vendor opcode is the one, and
it comes from the destination, where that is one device. -/
def Answers (c : SDKLibCommand) (message : ReceivedMessage) (source : BitVec 16) : Prop :=
  (c.responseOpCode = some message.opCode ∨
    c.responseOpCode = some ((message.opCode >>> 16) &&& 0xFF)) ∧
  (isUnicastAddress c.destination = true → c.destination = source)

/-- The source answered the command after it was sent. -/
def AnsweredIn (log : List LogEntry) (id : ℕ) (c : SDKLibCommand) (source : BitVec 16) : Prop :=
  ∃ before message after, log = before ++ .sent id :: after ∧
    .received message source ∈ after ∧ Answers c message source

def IsResult (id : ℕ) : LogEntry → Prop
  | .result id' _ => id' = id
  | _ => False

/-- A result or a cancel of the command. -/
def Ends (id : ℕ) : LogEntry → Prop
  | .result id' _ => id' = id
  | .cancelled id' => id' = id
  | _ => False

instance (id : ℕ) (entry : LogEntry) : Decidable (IsResult id entry) :=
  match entry with
  | .result _ _ => inferInstanceAs (Decidable (_ = _))
  | .sent _ | .resent _ | .received _ _ | .cancelled _ => inferInstanceAs (Decidable False)

/-- **The life of a command.** -/
structure Lifecycle (s : SigMeshLib) (id : ℕ) : Prop where
  once : s.log.countP (IsResult id ·) ≤ 1
  answered : ∀ before after, s.log = before ++ .result id true :: after →
    0 < (s.command id).responseMaxCount → ∃ sources : List (BitVec 16), sources.Nodup ∧
      sources.length = (s.command id).responseMaxCount ∧
      ∀ source ∈ sources, AnsweredIn before id (s.command id) source
  gone : (∃ entry ∈ s.log, Ends id entry) →
    id ∉ s.commands ∧ id ∉ s.queue ∧ (s.command id).retryTimer = none
  silent : s.log.Pairwise fun entry later => Ends id entry → later ≠ .resent id

/-- A cancel ends the command and no other. -/
structure CancelEnds (s : SigMeshLib) (id : ℕ) : Prop where
  notKept : id ∉ (s.next (.cancel id)).commands
  notQueued : id ∉ (s.next (.cancel id)).queue
  noTimer : ((s.next (.cancel id)).command id).retryTimer = none
  noBlock : ∀ block ∈ (s.next (.cancel id)).main, block.id ≠ id
  others : ∀ id' ≠ id, (s.next (.cancel id)).command id' = s.command id' ∧
    (id' ∈ (s.next (.cancel id)).commands ↔ id' ∈ s.commands)

/-! ### Events in turn -/

/-- A block about the command is on the main queue. -/
def SigMeshLib.Pending (s : SigMeshLib) (id : ℕ) : Prop := ∃ block ∈ s.main, block.id = id

instance (s : SigMeshLib) (id : ℕ) : Decidable (s.Pending id) :=
  inferInstanceAs (Decidable (∃ _ ∈ _, _))

/-- The command that an event finds. -/
def SigMeshLib.found (s : SigMeshLib) : Event → Option ℕ
  | .receive message source _ => s.getCommandWithReceiveMessage message source
  | .didSend opCode _ | .failedToSend opCode => s.getCommandWithSendMessage opCode
  | .networkPdu isSegmented => if isSegmented then s.commands.head? else none
  | .fire id => (s.command id).retryTimer.map fun _ => id
  | .cancel id => s.getCommandWithSendMessage (s.command id).opCode
  | .send _ | .runQueue | .runMain => none

/-- A cancel finds its command, whose message was sent and which has no block on the main queue, or
there is nothing left of it. -/
def CancelInTurn (s : SigMeshLib) (id : ℕ) : Prop :=
  id ∉ s.queue ∧ ¬ s.Pending id ∧
    (s.found (.cancel id) = some id ∨
      s.found (.cancel id) = none ∧ (s.command id).retryTimer = none)

/-- No event brings a result of a command that has a block on the main queue.  A result that is
brought by a sent message is one that waits for no response, and a message that failed is sent
again. -/
def InTurn (s : SigMeshLib) (e : Event) : Prop :=
  match e with
  | .receive message source knownNode => ∀ id ∈ s.found e, s.Pending id →
      (s.command id).resultCallback = true → (s.command id).responseMaxCount = 0 ∨
        ((s.command id).addSource message.opCode source knownNode).responseSourceArray.length ≠
          (s.command id).responseMaxCount
  | .didSend _ toLocalElement => ∀ id ∈ s.found e, (s.command id).retryCount = 0 →
      (s.command id).resultCallback = true →
        if (s.command id).responseMaxCount = 0 then ¬ s.Pending id else toLocalElement = false
  | .failedToSend _ => ∀ id ∈ s.found e,
      (s.command id).retryCount = 0 → (s.command id).resultCallback = false
  | .fire id => (s.command id).retryTimer = some .timeout → (s.command id).resultCallback = true →
      (s.command id).hadReceiveAllResponse = false → ¬ s.Pending id
  | .cancel id => id < s.count ∧ CancelInTurn s id
  | .send _ | .runQueue | .runMain | .networkPdu _ => True

instance (s : SigMeshLib) (e : Event) : Decidable (InTurn s e) :=
  match e with
  | .receive _ _ _ => inferInstanceAs (Decidable (∀ id ∈ _, _ → _ → _))
  | .didSend _ _ => inferInstanceAs (Decidable (∀ id ∈ _, _ → _ → if _ = 0 then _ else _))
  | .failedToSend _ => inferInstanceAs (Decidable (∀ id ∈ _, _ → _))
  | .fire _ => inferInstanceAs (Decidable (_ → _ → _ → _))
  | .cancel _ => inferInstanceAs (Decidable (_ ∧ _ ∧ _ ∧ (_ ∨ _)))
  | .send _ | .runQueue | .runMain | .networkPdu _ => inferInstanceAs (Decidable True)

/-! ### The invariant of a command -/

/-- The entry names the command. -/
def About (id : ℕ) : LogEntry → Prop
  | .sent id' | .resent id' | .result id' _ | .cancelled id' => id' = id
  | .received _ _ => False

/-- The block brings a result. -/
def MainBlock.isPromise : MainBlock → Bool
  | .finishAndResult _ | .result _ => true
  | .finish _ => false

/-- The blocks about a command. -/
def SigMeshLib.about (s : SigMeshLib) (id : ℕ) : List MainBlock := s.main.filter (·.id = id)

/-- A result YES has its answers before it. -/
def AnsweredResult (id : ℕ) (c : SDKLibCommand) (before : List LogEntry) (entry : LogEntry) :
    Prop :=
  entry = .result id true → 0 < c.responseMaxCount → ∃ sources : List (BitVec 16),
    sources.Nodup ∧ sources.length = c.responseMaxCount ∧
      ∀ source ∈ sources, AnsweredIn before id c source

/-- Nothing was done for the command yet. -/
structure Untouched (s : SigMeshLib) (id : ℕ) : Prop where
  notKept : id ∉ s.commands
  noTimer : (s.command id).retryTimer = none
  noSource : (s.command id).responseSourceArray = []
  noBlock : s.about id = []
  noEntry : ∀ entry ∈ s.log, ¬ About id entry

/-- The results that are under way. -/
def SigMeshLib.promised (s : SigMeshLib) (id : ℕ) : ℕ :=
  if (s.command id).resultCallback then (s.about id).countP (·.isPromise) else 0

structure Inv (s : SigMeshLib) (id : ℕ) : Prop where
  untouched : s.count ≤ id ∨ id ∈ s.queue → Untouched s id
  sent : id ∈ s.commands → .sent id ∈ s.log
  gone : (∃ entry ∈ s.log, Ends id entry) →
    id ∉ s.commands ∧ (s.command id).retryTimer = none
  once : s.log.countP (IsResult id ·) + s.promised id ≤ 1
  /-- The block before this one finished the command. -/
  finished : ∀ rest, s.about id = .result id :: rest →
    id ∉ s.commands ∧ (s.command id).retryTimer = none
  enough : .finishAndResult id ∈ s.about id →
    (s.command id).responseMaxCount ≤ (s.command id).responseSourceArray.length
  unasked : .result id ∈ s.about id →
    (s.command id).resultCallback = true ∧ (s.command id).responseMaxCount = 0
  distinct : (s.command id).responseSourceArray.Nodup
  sources : ∀ source ∈ (s.command id).responseSourceArray,
    AnsweredIn s.log id (s.command id) source
  answered : Each (AnsweredResult id (s.command id)) s.log
  silent : s.log.Pairwise fun entry later => Ends id entry → later ≠ .resent id

/-- The message of the command was sent, and the command was not ended. -/
structure Live (s : SigMeshLib) (id : ℕ) : Prop where
  known : ¬ (s.count ≤ id ∨ id ∈ s.queue)
  notOver : ¬ ∃ entry ∈ s.log, Ends id entry
  notFinished : ∀ rest, s.about id ≠ .result id :: rest

theorem Ends.about {id : ℕ} {entry : LogEntry} (h : Ends id entry) : About id entry := by
  cases entry with
  | result _ _ => exact h
  | cancelled _ => exact h
  | sent _ => exact h.elim
  | resent _ => exact h.elim
  | received _ _ => exact h.elim

theorem IsResult.ends {id : ℕ} {entry : LogEntry} (h : IsResult id entry) : Ends id entry := by
  cases entry with
  | result _ _ => exact h
  | cancelled _ => exact h.elim
  | sent _ => exact h.elim
  | resent _ => exact h.elim
  | received _ _ => exact h.elim

theorem AnsweredIn.append {log : List LogEntry} {id : ℕ} {c : SDKLibCommand} {source : BitVec 16}
    (h : AnsweredIn log id c source) (entries : List LogEntry) :
    AnsweredIn (log ++ entries) id c source := by
  obtain ⟨before, message, after, rfl, hmem, hanswers⟩ := h
  exact ⟨before, message, after ++ entries, by simp, List.mem_append_left _ hmem, hanswers⟩

/-! ### What an event leaves as it is -/

/-- The log grows by entries that do not name the command. -/
theorem silent_append {id : ℕ} {log entries : List LogEntry}
    (h : log.Pairwise fun entry later => Ends id entry → later ≠ .resent id)
    (hentries : ∀ entry ∈ entries, ¬ About id entry) :
    (log ++ entries).Pairwise fun entry later => Ends id entry → later ≠ .resent id := by
  have hlater : ∀ later ∈ entries, later ≠ .resent id := fun later hmem heq =>
    hentries later hmem (heq ▸ rfl)
  refine List.pairwise_append.mpr ⟨h, ?_, fun _ _ later hmem _ => hlater later hmem⟩
  exact List.pairwise_of_forall_mem_list fun _ _ later hmem _ => hlater later hmem

/-- Entries that end the command do not send it again. -/
theorem silent_append_ends {id : ℕ} {log entries : List LogEntry}
    (h : log.Pairwise fun entry later => Ends id entry → later ≠ .resent id)
    (hentries : ∀ entry ∈ entries, Ends id entry) :
    (log ++ entries).Pairwise fun entry later => Ends id entry → later ≠ .resent id := by
  have hlater : ∀ later ∈ entries, later ≠ .resent id := by
    intro later hmem heq
    have hend := hentries later hmem
    rw [heq] at hend
    exact hend
  refine List.pairwise_append.mpr ⟨h, ?_, fun _ _ later hmem _ => hlater later hmem⟩
  exact List.pairwise_of_forall_mem_list fun _ _ later hmem _ => hlater later hmem

theorem countP_append_of_not_about {id : ℕ} {log entries : List LogEntry}
    (hentries : ∀ entry ∈ entries, ¬ About id entry) :
    (log ++ entries).countP (IsResult id ·) = log.countP (IsResult id ·) := by
  rw [List.countP_append, Nat.add_eq_left]
  refine List.countP_eq_zero.mpr fun entry hmem hres => ?_
  exact hentries entry hmem (of_decide_eq_true hres).ends.about

theorem countP_eq_zero_of_not_over {id : ℕ} {log : List LogEntry}
    (h : ¬ ∃ entry ∈ log, Ends id entry) : log.countP (IsResult id ·) = 0 :=
  List.countP_eq_zero.mpr fun entry hmem hres => h ⟨entry, hmem, (of_decide_eq_true hres).ends⟩

namespace Inv

variable {s s' : SigMeshLib} {id : ℕ}

/-- An event that does not name the command. -/
theorem frame (h : Inv s id) (hcommand : s'.command id = s.command id)
    (hcommands : id ∈ s'.commands → id ∈ s.commands)
    (hqueue : s'.count ≤ id ∨ id ∈ s'.queue → s.count ≤ id ∨ id ∈ s.queue)
    (hmain : s'.about id = s.about id) {entries : List LogEntry}
    (hlog : s'.log = s.log ++ entries) (hentries : ∀ entry ∈ entries, ¬ About id entry) :
    Inv s' id where
  untouched := by
    intro hq
    obtain ⟨hkept, htimer, hsource, hblock, hentry⟩ := h.untouched (hqueue hq)
    refine ⟨fun hmem => hkept (hcommands hmem), hcommand ▸ htimer, hcommand ▸ hsource,
      hmain.trans hblock, fun entry hmem => ?_⟩
    rw [hlog] at hmem
    exact (List.mem_append.mp hmem).elim (hentry entry) (hentries entry)
  sent := fun hmem => hlog ▸ List.mem_append_left _ (h.sent (hcommands hmem))
  gone := by
    intro hends
    obtain ⟨entry, hmem, hend⟩ := hends
    rw [hlog] at hmem
    have hold : entry ∈ s.log := (List.mem_append.mp hmem).resolve_right fun hnew =>
      hentries entry hnew hend.about
    obtain ⟨hkept, htimer⟩ := h.gone ⟨entry, hold, hend⟩
    exact ⟨fun hmem => hkept (hcommands hmem), hcommand ▸ htimer⟩
  once := by
    unfold SigMeshLib.promised
    rw [hlog, hmain, hcommand, countP_append_of_not_about hentries]
    exact h.once
  finished := by
    intro rest habout
    obtain ⟨hkept, htimer⟩ := h.finished rest (hmain ▸ habout)
    exact ⟨fun hmem => hkept (hcommands hmem), hcommand ▸ htimer⟩
  enough := by
    rw [hmain, hcommand]
    exact h.enough
  unasked := by
    rw [hmain, hcommand]
    exact h.unasked
  distinct := hcommand ▸ h.distinct
  sources := by
    rw [hlog, hcommand]
    exact fun source hmem => (h.sources source hmem).append entries
  answered := by
    rw [hlog, hcommand]
    refine h.answered.append fun entry hmem before heq => ?_
    subst heq
    exact absurd rfl (hentries _ hmem)
  silent := by
    rw [hlog]
    exact silent_append h.silent hentries

/-- A command that got nothing yet. -/
theorem of_empty (huntouched : s.count ≤ id ∨ id ∈ s.queue → Untouched s id)
    (hsent : id ∈ s.commands → .sent id ∈ s.log) (hover : ¬ ∃ entry ∈ s.log, Ends id entry)
    (hsource : (s.command id).responseSourceArray = []) (hblock : s.about id = []) : Inv s id where
  untouched := huntouched
  sent := hsent
  gone := fun hends => absurd hends hover
  once := by
    unfold SigMeshLib.promised
    rw [countP_eq_zero_of_not_over hover, hblock, List.countP_nil, ite_self]
    exact Nat.zero_le 1
  finished := by
    intro rest habout
    cases hblock.symm.trans habout
  enough := by
    rw [hblock]
    exact fun hmem => nomatch hmem
  unasked := by
    rw [hblock]
    exact fun hmem => nomatch hmem
  distinct := by
    rw [hsource]
    exact List.nodup_nil
  sources := by
    rw [hsource]
    exact fun _ hmem => nomatch hmem
  answered := by
    intro before entry after heq hentry
    have hmem : entry ∈ s.log := heq ▸ List.mem_append_right _ List.mem_cons_self
    exact absurd ⟨entry, hmem, hentry ▸ rfl⟩ hover
  silent := List.pairwise_of_forall_mem_list fun entry hmem _ _ hend =>
    absurd ⟨entry, hmem, hend⟩ hover

theorem of_untouched (h : Untouched s id) : Inv s id := by
  refine of_empty (fun _ => h) (fun hmem => absurd hmem h.notKept) ?_ h.noSource h.noBlock
  intro hends
  obtain ⟨entry, hmem, hend⟩ := hends
  exact h.noEntry entry hmem hend.about

/-- A command that is in the list or has a timer is neither new nor over. -/
theorem live_of_mem (h : Inv s id) (hmem : id ∈ s.commands) : Live s id :=
  ⟨fun hq => (h.untouched hq).notKept hmem, fun hends => (h.gone hends).1 hmem,
    fun rest habout => (h.finished rest habout).1 hmem⟩

theorem live_of_timer (h : Inv s id) (htimer : (s.command id).retryTimer ≠ none) : Live s id :=
  ⟨fun hq => htimer (h.untouched hq).noTimer, fun hends => htimer (h.gone hends).2,
    fun rest habout => htimer (h.finished rest habout).2⟩

/-- As many sources as a command waits for. -/
theorem enough_sources (h : Inv s id) (hmem : .finishAndResult id ∈ s.about id) :
    ∃ sources : List (BitVec 16), sources.Nodup ∧
      sources.length = (s.command id).responseMaxCount ∧
      ∀ source ∈ sources, AnsweredIn s.log id (s.command id) source :=
  ⟨(s.command id).responseSourceArray.take (s.command id).responseMaxCount,
    h.distinct.sublist (List.take_sublist _ _), List.length_take_of_le (h.enough hmem),
    fun source hin => h.sources source (List.mem_of_mem_take hin)⟩

theorem about_of_not_pending (h : ¬ s.Pending id) : s.about id = [] :=
  List.filter_eq_nil_iff.mpr fun block hmem hid => h ⟨block, hmem, of_decide_eq_true hid⟩

end Inv

/-- What a command waits for, and has got, is the same. -/
structure SameAnswers (c c' : SDKLibCommand) : Prop where
  resultCallback : c'.resultCallback = c.resultCallback
  responseMaxCount : c'.responseMaxCount = c.responseMaxCount
  responseOpCode : c'.responseOpCode = c.responseOpCode
  destination : c'.destination = c.destination
  responseSourceArray : c'.responseSourceArray = c.responseSourceArray

theorem AnsweredIn.congr {log : List LogEntry} {id : ℕ} {c c' : SDKLibCommand}
    {source : BitVec 16} (h : AnsweredIn log id c source)
    (hop : c'.responseOpCode = c.responseOpCode) (hdest : c'.destination = c.destination) :
    AnsweredIn log id c' source := by
  obtain ⟨before, message, after, hlog, hmem, hanswers⟩ := h
  refine ⟨before, message, after, hlog, hmem, ?_⟩
  unfold Answers
  rw [hop, hdest]
  exact hanswers

theorem AnsweredResult.congr {log : List LogEntry} {id : ℕ} {c c' : SDKLibCommand}
    (h : Each (AnsweredResult id c) log) (hmax : c'.responseMaxCount = c.responseMaxCount)
    (hop : c'.responseOpCode = c.responseOpCode) (hdest : c'.destination = c.destination) :
    Each (AnsweredResult id c') log := by
  intro before entry after heq hentry hpos
  obtain ⟨sources, hnodup, hlength, hall⟩ := h before entry after heq hentry (hmax ▸ hpos)
  exact ⟨sources, hnodup, hlength.trans hmax.symm,
    fun source hmem => (hall source hmem).congr hop hdest⟩

namespace SigMeshLib

variable (s : SigMeshLib) (id : ℕ) (f : SDKLibCommand → SDKLibCommand)

@[simp] theorem modify_command : (s.modify id f).command id = f (s.command id) :=
  Function.update_self ..

@[simp] theorem modify_command_of_ne {id' : ℕ} (h : id' ≠ id) :
    (s.modify id f).command id' = s.command id' :=
  Function.update_of_ne h ..

@[simp] theorem modify_commands : (s.modify id f).commands = s.commands := rfl

@[simp] theorem modify_count : (s.modify id f).count = s.count := rfl

@[simp] theorem modify_queue : (s.modify id f).queue = s.queue := rfl

@[simp] theorem modify_main : (s.modify id f).main = s.main := rfl

@[simp] theorem modify_log : (s.modify id f).log = s.log := rfl

theorem finish_command : (s.commandResponseFinish id).command id =
    { s.command id with retryTimer := none, retryCount := 0 } :=
  s.modify_command id fun c => { c with retryTimer := none, retryCount := 0 }

theorem finish_command_of_ne {id' : ℕ} (h : id' ≠ id) :
    (s.commandResponseFinish id).command id' = s.command id' :=
  s.modify_command_of_ne id (fun c => { c with retryTimer := none, retryCount := 0 }) h

theorem finish_timer : ((s.commandResponseFinish id).command id).retryTimer = none := by
  rw [finish_command]

theorem mem_finish_commands {id' : ℕ} :
    id' ∈ (s.commandResponseFinish id).commands ↔ id' ∈ s.commands ∧ id' ≠ id :=
  List.mem_filter.trans (and_congr_right fun _ => decide_eq_true_iff)

theorem not_mem_finish_commands : id ∉ (s.commandResponseFinish id).commands := fun hmem =>
  ((s.mem_finish_commands id).mp hmem).2 rfl

end SigMeshLib

namespace Inv

variable {s : SigMeshLib} {id : ℕ}

/-- Another command is modified. -/
theorem modify_of_ne (h : Inv s id) {id' : ℕ} (hne : id ≠ id') (f : SDKLibCommand → SDKLibCommand) :
    Inv (s.modify id' f) id :=
  h.frame (s.modify_command_of_ne id' f hne) (fun hmem => hmem) (fun hq => hq) rfl
    (List.append_nil _).symm fun _ hmem => nomatch hmem

/-- A command that is not over is modified; what it has got is the same. -/
theorem modify_of_live (h : Inv s id) (hlive : Live s id) {f : SDKLibCommand → SDKLibCommand}
    (hsame : SameAnswers (s.command id) (f (s.command id))) : Inv (s.modify id f) id := by
  have hcommand : (s.modify id f).command id = f (s.command id) := s.modify_command id f
  exact {
    untouched := fun hq => absurd hq hlive.known
    sent := h.sent
    gone := fun hends => absurd hends hlive.notOver
    once := by
      unfold SigMeshLib.promised
      rw [hcommand, hsame.resultCallback]
      exact h.once
    finished := fun rest habout => absurd habout (hlive.notFinished rest)
    enough := by
      rw [hcommand, hsame.responseMaxCount, hsame.responseSourceArray]
      exact h.enough
    unasked := by
      rw [hcommand, hsame.responseMaxCount, hsame.resultCallback]
      exact h.unasked
    distinct := by
      rw [hcommand, hsame.responseSourceArray]
      exact h.distinct
    sources := by
      rw [hcommand, hsame.responseSourceArray]
      exact fun source hmem =>
        (h.sources source hmem).congr hsame.responseOpCode hsame.destination
    answered := by
      rw [hcommand]
      exact AnsweredResult.congr h.answered hsame.responseMaxCount hsame.responseOpCode
        hsame.destination
    silent := h.silent }

theorem sameAnswers_retrySend (c : SDKLibCommand) : SameAnswers c c.retrySend :=
  ⟨rfl, rfl, rfl, rfl, rfl⟩

end Inv

/-! ### Every event -/

/-- The commands in the list, on the queue or on the main queue are known. -/
structure AllInv (s : SigMeshLib) : Prop where
  nodup : s.queue.Nodup
  known : ∀ id ∈ s.queue, id < s.count
  inv : ∀ id, Inv s id

namespace AllInv

variable {s : SigMeshLib}

/-- An event that modifies a command which is not over. -/
theorem modify_of_live (h : AllInv s) {found : ℕ} (hlive : Live s found)
    {f : SDKLibCommand → SDKLibCommand}
    (hsame : SameAnswers (s.command found) (f (s.command found))) : AllInv (s.modify found f) := by
  refine ⟨h.nodup, h.known, fun id => ?_⟩
  by_cases hid : id = found
  · subst hid
    exact (h.inv id).modify_of_live hlive hsame
  · exact (h.inv id).modify_of_ne hid f

/-- An event that finds a command and modifies it only. -/
theorem modify (h : AllInv s) {found : ℕ} (hmem : found ∈ s.commands)
    {f : SDKLibCommand → SDKLibCommand}
    (hsame : SameAnswers (s.command found) (f (s.command found))) : AllInv (s.modify found f) :=
  h.modify_of_live ((h.inv found).live_of_mem hmem) hsame

theorem networkPdu (h : AllInv s) (isSegmented : Bool) :
    AllInv (s.receiveNetworkPdu isSegmented) := by
  unfold SigMeshLib.receiveNetworkPdu
  split
  case h_1 => exact h
  case h_2 id _ hcommands =>
    split
    case isFalse => exact h
    case isTrue => exact h.modify (hcommands ▸ List.mem_cons_self) (Inv.sameAnswers_retrySend _)

/-- An event that finds a command and dispatches its blocks; one that finishes it comes first. -/
theorem dispatch (h : AllInv s) {found : ℕ} (hmem : found ∈ s.commands) {blocks : List MainBlock}
    (hblocks : ∀ block ∈ blocks, block.id = found)
    (hfirst : ∀ rest, blocks ≠ .result found :: rest)
    (hpromise : (s.command found).resultCallback = true →
      ¬ s.Pending found ∧ blocks.countP (·.isPromise) ≤ 1)
    (henough : .finishAndResult found ∈ blocks →
      (s.command found).responseMaxCount ≤ (s.command found).responseSourceArray.length)
    (hunasked : .result found ∈ blocks →
      (s.command found).resultCallback = true ∧ (s.command found).responseMaxCount = 0) :
    AllInv (s.dispatchMain blocks) := by
  refine ⟨h.nodup, h.known, fun id => ?_⟩
  by_cases hid : id = found
  case neg =>
    refine (h.inv id).frame rfl (fun hmem => hmem) (fun hq => hq) ?_ (List.append_nil _).symm
      fun _ hmem => nomatch hmem
    have hnone : blocks.filter (·.id = id) = [] := List.filter_eq_nil_iff.mpr fun block hb heq =>
      hid ((of_decide_eq_true heq).symm.trans (hblocks block hb))
    unfold SigMeshLib.about SigMeshLib.dispatchMain
    rw [List.filter_append, hnone, List.append_nil]
  case pos =>
    subst hid
    have hinv := h.inv id
    have hlive := hinv.live_of_mem hmem
    have habout : (s.dispatchMain blocks).about id = s.about id ++ blocks := by
      have hall : blocks.filter (·.id = id) = blocks := List.filter_eq_self.mpr fun block hb =>
        decide_eq_true (hblocks block hb)
      unfold SigMeshLib.about SigMeshLib.dispatchMain
      rw [List.filter_append, hall]
    exact {
      untouched := fun hq => absurd hq hlive.known
      sent := hinv.sent
      gone := fun hends => absurd hends hlive.notOver
      once := by
        have hzero : (s.dispatchMain blocks).log.countP (IsResult id ·) = 0 :=
          countP_eq_zero_of_not_over hlive.notOver
        rw [hzero, Nat.zero_add]
        unfold SigMeshLib.promised
        split
        case isTrue hcallback =>
          obtain ⟨hnot, hcount⟩ := hpromise hcallback
          rwa [habout, Inv.about_of_not_pending hnot, List.nil_append]
        case isFalse => exact Nat.zero_le 1
      finished := by
        intro rest hrest
        rw [habout] at hrest
        cases hold : s.about id with
        | nil =>
          rw [hold] at hrest
          exact absurd hrest (hfirst rest)
        | cons block others =>
          rw [hold, List.cons_append] at hrest
          exact absurd ((List.cons.inj hrest).1 ▸ hold) (hlive.notFinished others)
      enough := by
        rw [habout]
        exact fun hin => (List.mem_append.mp hin).elim hinv.enough henough
      unasked := by
        rw [habout]
        exact fun hin => (List.mem_append.mp hin).elim hinv.unasked hunasked
      distinct := hinv.distinct
      sources := hinv.sources
      answered := hinv.answered
      silent := hinv.silent }

theorem didSend (h : AllInv s) {opCode : BitVec 32} {toLocalElement : Bool}
    (hturn : InTurn s (.didSend opCode toLocalElement)) :
    AllInv (s.didSendMessage opCode toLocalElement) := by
  unfold SigMeshLib.didSendMessage
  split
  case h_1 => exact h
  case h_2 id hfound =>
    have hmem : id ∈ s.commands := List.mem_of_find?_eq_some hfound
    split
    case isTrue => exact h.modify hmem (Inv.sameAnswers_retrySend _)
    case isFalse hretry =>
      have hbring := hturn id hfound (Nat.eq_zero_of_not_pos hretry)
      split
      case isFalse => exact h
      case isTrue hdone =>
        cases hresult : (s.command id).resultCallback with
        | false =>
          exact h.dispatch hmem (by simp [MainBlock.id]) (by simp) (by simp [hresult]) (by simp)
            (by simp)
        | true =>
          have hmax : (s.command id).responseMaxCount = 0 := by
            by_contra hmax
            have hlocal := hbring hresult
            rw [if_neg hmax] at hlocal
            exact Bool.false_ne_true (hlocal.symm.trans (hdone.resolve_left hmax))
          have hnot := hbring hresult
          rw [if_pos hmax] at hnot
          refine h.dispatch hmem (by simp [MainBlock.id]) (by simp) (fun _ => ⟨hnot, ?_⟩) (by simp)
            fun _ => ⟨hresult, hmax⟩
          simp [MainBlock.isPromise]

theorem failedToSend (h : AllInv s) {opCode : BitVec 32} (hturn : InTurn s (.failedToSend opCode)) :
    AllInv (s.failedToSendMessage opCode) := by
  unfold SigMeshLib.failedToSendMessage
  split
  case h_1 => exact h
  case h_2 id hfound =>
    have hmem : id ∈ s.commands := List.mem_of_find?_eq_some hfound
    split
    case isTrue => exact h.modify hmem (Inv.sameAnswers_retrySend _)
    case isFalse hretry =>
      have hnone := hturn id hfound (Nat.eq_zero_of_not_pos hretry)
      rw [hnone, if_neg Bool.false_ne_true]
      have hmod : AllInv (s.modify id fun c => { c with hadReceiveAllResponse := true }) :=
        h.modify hmem ⟨rfl, rfl, rfl, rfl, rfl⟩
      unfold SigMeshLib.write
      rw [List.append_nil]
      exact hmod

/-- The log grows by entries that name no command. -/
theorem write (h : AllInv s) {entries : List LogEntry}
    (hentries : ∀ id, ∀ entry ∈ entries, ¬ About id entry) : AllInv (s.write entries) :=
  ⟨h.nodup, h.known, fun id =>
    (h.inv id).frame rfl (fun hmem => hmem) (fun hq => hq) rfl rfl (hentries id)⟩

/-- A source that answered a command is counted once. -/
theorem addSource (h : AllInv s) {found : ℕ} (hmem : found ∈ s.commands) (opCode : BitVec 32)
    {source : BitVec 16} (knownNode : Bool)
    (hanswered : AnsweredIn s.log found (s.command found) source) :
    AllInv (s.modify found (·.addSource opCode source knownNode)) := by
  by_cases hnew : (s.command found).responseSourceArray.contains source = false ∧
      (knownNode ∨ 0xFFFF < opCode)
  case neg =>
    refine h.modify hmem ?_
    rw [SDKLibCommand.addSource, if_neg hnew]
    exact ⟨rfl, rfl, rfl, rfl, rfl⟩
  case pos =>
    refine ⟨h.nodup, h.known, fun id => ?_⟩
    by_cases hid : id = found
    case neg => exact (h.inv id).modify_of_ne hid _
    case pos =>
      subst hid
      have hinv := h.inv id
      have hlive := hinv.live_of_mem hmem
      have hfresh : source ∉ (s.command id).responseSourceArray := fun hin =>
        Bool.false_ne_true (hnew.1.symm.trans (List.contains_iff_mem.mpr hin))
      have hcommand : (s.modify id (·.addSource opCode source knownNode)).command id =
          { s.command id with
            responseSourceArray := (s.command id).responseSourceArray ++ [source] } := by
        rw [SigMeshLib.modify_command, SDKLibCommand.addSource, if_pos hnew]
      exact {
        untouched := fun hq => absurd hq hlive.known
        sent := hinv.sent
        gone := fun hends => absurd hends hlive.notOver
        once := by
          unfold SigMeshLib.promised
          rw [hcommand]
          exact hinv.once
        finished := fun rest habout => absurd habout (hlive.notFinished rest)
        enough := by
          rw [hcommand, List.length_append]
          exact fun hin => Nat.le_add_right_of_le (hinv.enough hin)
        unasked := by
          rw [hcommand]
          exact hinv.unasked
        distinct := by
          rw [hcommand]
          exact List.nodup_append.mpr ⟨hinv.distinct, List.nodup_singleton _, fun a ha b hb heq =>
            hfresh (List.mem_singleton.mp hb ▸ heq ▸ ha)⟩
        sources := by
          rw [hcommand]
          intro source' hsource
          cases List.mem_append.mp hsource with
          | inl hold => exact hinv.sources source' hold
          | inr hlast => exact List.mem_singleton.mp hlast ▸ hanswered
        answered := by
          rw [hcommand]
          exact hinv.answered
        silent := hinv.silent }

theorem SDKLibCommand.addSource_same (c : SDKLibCommand) (opCode : BitVec 32) (source : BitVec 16)
    (knownNode : Bool) : (c.addSource opCode source knownNode).resultCallback = c.resultCallback ∧
      (c.addSource opCode source knownNode).responseMaxCount = c.responseMaxCount := by
  unfold SDKLibCommand.addSource
  split
  · exact ⟨rfl, rfl⟩
  · exact ⟨rfl, rfl⟩

theorem answers_of_answeredBy {c : SDKLibCommand} {message : ReceivedMessage} {source : BitVec 16}
    (h : c.answeredBy message source = true) : Answers c message source := by
  have hfrom : c.isFrom source = true → isUnicastAddress c.destination = true →
      c.destination = source := by
    intro hfrom hunicast
    have hor := of_decide_eq_true hfrom
    exact hor.resolve_left fun hfalse => Bool.false_ne_true (hfalse.symm.trans hunicast)
  unfold SDKLibCommand.answeredBy at h
  split at h
  · obtain ⟨hop, hsource⟩ := of_decide_eq_true h
    exact ⟨.inl hop, hfrom hsource⟩
  · obtain ⟨-, hop, hsource⟩ := of_decide_eq_true h
    exact ⟨.inl hop, hfrom hsource⟩
  · obtain ⟨hop, hsource⟩ := of_decide_eq_true h
    exact ⟨hop, hfrom hsource⟩
  · exact absurd h Bool.false_ne_true

theorem receive (h : AllInv s) {message : ReceivedMessage} {source : BitVec 16} {knownNode : Bool}
    (hturn : InTurn s (.receive message source knownNode)) :
    AllInv (s.didReceiveMessage message source knownNode) := by
  have hwrite : AllInv (s.write [.received message source]) :=
      h.write fun id entry hmem habout => by
    cases List.mem_singleton.mp hmem
    exact habout
  unfold SigMeshLib.didReceiveMessage
  dsimp only
  split
  case h_1 => exact hwrite
  case h_2 id hfound =>
    have hmem : id ∈ s.commands := List.mem_of_find?_eq_some hfound
    have hanswers : Answers (s.command id) message source := by
      unfold SigMeshLib.getCommandWithReceiveMessage at hfound
      have hfind := List.find?_some hfound
      exact answers_of_answeredBy hfind
    have hanswered : AnsweredIn (s.write [.received message source]).log id (s.command id)
        source := by
      obtain ⟨before, after, hlog⟩ := List.append_of_mem ((h.inv id).sent hmem)
      refine ⟨before, message, after ++ [.received message source], ?_,
        List.mem_append_right _ List.mem_cons_self, hanswers⟩
      unfold SigMeshLib.write
      rw [hlog, List.append_assoc, List.cons_append]
    have hadd := hwrite.addSource hmem message.opCode knownNode hanswered
    have hcommand : ((s.write [.received message source]).modify id
        (·.addSource message.opCode source knownNode)).command id =
          (s.command id).addSource message.opCode source knownNode :=
      SigMeshLib.modify_command ..
    split
    case isFalse => exact hadd.modify hmem ⟨rfl, rfl, rfl, rfl, rfl⟩
    case isTrue hmax =>
      split
      case isFalse => exact hadd
      case isTrue hlength =>
        refine hadd.dispatch hmem (by simp [MainBlock.id]) (by simp) (fun hcallback => ⟨?_, ?_⟩)
          (fun _ => hlength.ge) (by simp)
        · intro hpending
          rw [hcommand] at hmax hlength hcallback
          obtain ⟨hresult, hcount⟩ := SDKLibCommand.addSource_same (s.command id) message.opCode
            source knownNode
          rw [hresult] at hcallback
          rw [hcount] at hmax hlength
          exact (hturn id hfound hpending hcallback).elim hmax fun hne => hne hlength
        · exact List.countP_le_length

/-- What is logged about a command that is left by the list and the timer is no second result. -/
theorem logged (h : AllInv s) {found : ℕ} (hknown : ¬ (s.count ≤ found ∨ found ∈ s.queue))
    (hkept : found ∉ s.commands) (htimer : (s.command found).retryTimer = none)
    {entries : List LogEntry} (hentries : ∀ entry ∈ entries, Ends found entry)
    (hother : ∀ id ≠ found, ∀ entry ∈ entries, ¬ About id entry)
    (honce : (s.log ++ entries).countP (IsResult found ·) + s.promised found ≤ 1)
    (hanswered : Each (AnsweredResult found (s.command found)) (s.log ++ entries)) :
    AllInv (s.write entries) := by
  refine ⟨h.nodup, h.known, fun id => ?_⟩
  by_cases hid : id = found
  case neg =>
    exact (h.inv id).frame rfl (fun hmem => hmem) (fun hq => hq) rfl rfl (hother id hid)
  case pos =>
    subst hid
    have hinv := h.inv id
    exact {
      untouched := fun hq => absurd hq hknown
      sent := fun hmem => absurd hmem hkept
      gone := fun _ => ⟨hkept, htimer⟩
      once := honce
      finished := hinv.finished
      enough := hinv.enough
      unasked := hinv.unasked
      distinct := hinv.distinct
      sources := fun source hmem => (hinv.sources source hmem).append entries
      answered := hanswered
      silent := silent_append_ends hinv.silent hentries }

/-- A command that is known leaves the list, and its timer is stopped. -/
theorem finish (h : AllInv s) {found : ℕ} (hknown : ¬ (s.count ≤ found ∨ found ∈ s.queue)) :
    AllInv (s.commandResponseFinish found) := by
  refine ⟨h.nodup, h.known, fun id => ?_⟩
  by_cases hid : id = found
  case neg =>
    exact (h.inv id).frame (s.finish_command_of_ne found hid)
      (fun hmem => ((s.mem_finish_commands found).mp hmem).1) (fun hq => hq) rfl
      (List.append_nil _).symm fun _ hmem => nomatch hmem
  case pos =>
    subst hid
    have hinv := h.inv id
    have hkept := s.not_mem_finish_commands id
    have htimer := s.finish_timer id
    have hcommand := s.finish_command id
    exact {
      untouched := fun hq => absurd hq hknown
      sent := fun hmem => absurd hmem hkept
      gone := fun _ => ⟨hkept, htimer⟩
      once := by
        unfold SigMeshLib.promised
        rw [hcommand]
        exact hinv.once
      finished := fun _ _ => ⟨hkept, htimer⟩
      enough := by
        rw [hcommand]
        exact hinv.enough
      unasked := by
        rw [hcommand]
        exact hinv.unasked
      distinct := by
        rw [hcommand]
        exact hinv.distinct
      sources := by
        rw [hcommand]
        exact fun source hmem => (hinv.sources source hmem).congr rfl rfl
      answered := by
        rw [hcommand]
        exact AnsweredResult.congr hinv.answered rfl rfl rfl
      silent := hinv.silent }

/-- A command is finished, and what is logged about it is no second result. -/
theorem finish_write (h : AllInv s) {found : ℕ} (hknown : ¬ (s.count ≤ found ∨ found ∈ s.queue))
    {entries : List LogEntry} (hentries : ∀ entry ∈ entries, Ends found entry)
    (hother : ∀ id ≠ found, ∀ entry ∈ entries, ¬ About id entry)
    (honce : (s.log ++ entries).countP (IsResult found ·) + s.promised found ≤ 1)
    (hanswered : Each (AnsweredResult found (s.command found)) (s.log ++ entries)) :
    AllInv ((s.commandResponseFinish found).write entries) := by
  have hcommand := s.finish_command found
  refine (h.finish hknown).logged hknown (s.not_mem_finish_commands found) (s.finish_timer found)
    hentries hother ?_ ?_
  · unfold SigMeshLib.promised
    rw [hcommand]
    exact honce
  · rw [hcommand]
    exact AnsweredResult.congr hanswered rfl rfl rfl

/-- A command that is not over is finished without a result, or with NO. -/
theorem finish_of_live (h : AllInv s) {found : ℕ} (hlive : Live s found) {entries : List LogEntry}
    (hentries : entries = [] ∨
      entries = [.result found false] ∧
        ((s.command found).resultCallback = true → ¬ s.Pending found)) :
    AllInv ((s.commandResponseFinish found).write entries) := by
  have hall : ∀ entry ∈ entries, entry = .result found false := by
    intro entry hmem
    rcases hentries with rfl | ⟨rfl, -⟩
    · cases hmem
    · exact List.mem_singleton.mp hmem
  refine h.finish_write hlive.known (fun entry hmem => hall entry hmem ▸ rfl) ?_ ?_ ?_
  · intro id hid entry hmem habout
    rw [hall entry hmem] at habout
    exact hid habout.symm
  · rcases hentries with rfl | ⟨rfl, hnot⟩
    · rw [List.append_nil]
      exact (h.inv found).once
    · have hzero : s.promised found = 0 := by
        unfold SigMeshLib.promised
        split
        case isTrue hcallback =>
          rw [Inv.about_of_not_pending (hnot hcallback)]
          rfl
        case isFalse => rfl
      rw [hzero, List.countP_append, countP_eq_zero_of_not_over hlive.notOver, Nat.zero_add,
        Nat.add_zero]
      exact List.countP_le_length
  · refine (h.inv found).answered.append fun entry hmem before heq => ?_
    rw [hall entry hmem] at heq
    cases heq

/-- A timer sends the message of a command that is not over. -/
theorem resend (h : AllInv s) {found : ℕ} (hlive : Live s found) :
    AllInv (s.write [.resent found]) := by
  refine ⟨h.nodup, h.known, fun id => ?_⟩
  by_cases hid : id = found
  case neg =>
    refine (h.inv id).frame rfl (fun hmem => hmem)
      (fun hq => hq) rfl rfl fun entry hmem habout => ?_
    cases List.mem_singleton.mp hmem
    exact hid habout.symm
  case pos =>
    subst hid
    have hinv := h.inv id
    have hover : ¬ ∃ entry ∈ s.log ++ [LogEntry.resent id], Ends id entry := by
      intro hends
      obtain ⟨entry, hmem, hend⟩ := hends
      cases List.mem_append.mp hmem with
      | inl hold => exact hlive.notOver ⟨entry, hold, hend⟩
      | inr hnew =>
        cases List.mem_singleton.mp hnew
        exact hend
    exact {
      untouched := fun hq => absurd hq hlive.known
      sent := fun hmem => List.mem_append_left _ (hinv.sent hmem)
      gone := fun hends => absurd hends hover
      once := by
        have hnew : (s.log ++ [LogEntry.resent id]).countP (IsResult id ·) = 0 :=
          countP_eq_zero_of_not_over hover
        exact (congrArg (· + _) hnew).trans_le
          ((Nat.zero_add _).trans_le ((Nat.le_add_left _ _).trans hinv.once))
      finished := hinv.finished
      enough := hinv.enough
      unasked := hinv.unasked
      distinct := hinv.distinct
      sources := fun source hmem => (hinv.sources source hmem).append _
      answered := hinv.answered.append fun entry hmem before heq => by
        cases List.mem_singleton.mp hmem
        cases heq
      silent := List.pairwise_of_forall_mem_list fun entry hmem _ _ hend =>
        absurd ⟨entry, hmem, hend⟩ hover }

theorem fire (h : AllInv s) {id : ℕ} (hturn : InTurn s (.fire id)) : AllInv (s.fire id) := by
  unfold SigMeshLib.fire
  dsimp only
  split
  case h_1 => exact h
  case h_2 htimer =>
    have hlive : Live s id := (h.inv id).live_of_timer (htimer ▸ Option.some_ne_none _)
    have hfired := h.modify_of_live (f := fun c => { c with retryTimer := none }) hlive
      ⟨rfl, rfl, rfl, rfl, rfl⟩
    have hlive' : Live (s.modify id fun c => { c with retryTimer := none }) id :=
      ⟨hlive.known, hlive.notOver, hlive.notFinished⟩
    refine hfired.finish_of_live hlive' ?_
    rw [SigMeshLib.modify_command]
    split
    case isTrue hresult => exact .inr ⟨rfl, fun _ => hturn htimer hresult.1 hresult.2⟩
    case isFalse => exact .inl rfl
  case h_3 htimer =>
    have hlive : Live s id := (h.inv id).live_of_timer (htimer ▸ Option.some_ne_none _)
    have hfired := h.modify_of_live (f := fun c => { c with retryTimer := none }) hlive
      ⟨rfl, rfl, rfl, rfl, rfl⟩
    split
    case isTrue =>
      have hcounted := hfired.modify_of_live
        (f := fun c => { c with hadRetryCount := c.hadRetryCount + 1 })
        ⟨hlive.known, hlive.notOver, hlive.notFinished⟩ ⟨rfl, rfl, rfl, rfl, rfl⟩
      exact hcounted.resend ⟨hlive.known, hlive.notOver, hlive.notFinished⟩
    case isFalse => exact hfired

theorem cancel (h : AllInv s) {id : ℕ} (hturn : InTurn s (.cancel id)) :
    AllInv (s.cancelSigMessageHandle id) := by
  obtain ⟨hknown, hqueue, -, hfound⟩ := hturn
  have hlive : ¬ (s.count ≤ id ∨ id ∈ s.queue) := not_or_intro (Nat.not_le.mpr hknown) hqueue
  have hends : ∀ entry ∈ [LogEntry.cancelled id], Ends id entry := by simp [Ends]
  have hother : ∀ id' ≠ id, ∀ entry ∈ [LogEntry.cancelled id], ¬ About id' entry := by
    intro id' hid entry hmem habout
    cases List.mem_singleton.mp hmem
    exact hid habout.symm
  have honce : (s.log ++ [LogEntry.cancelled id]).countP (IsResult id ·) + s.promised id ≤ 1 := by
    rw [List.countP_append, List.countP_singleton]
    exact (h.inv id).once
  have hanswered : Each (AnsweredResult id (s.command id)) (s.log ++ [.cancelled id]) :=
    (h.inv id).answered.append fun entry hmem before heq => by
      cases List.mem_singleton.mp hmem
      cases heq
  unfold SigMeshLib.cancelSigMessageHandle
  dsimp only
  split
  case h_1 hnone =>
    have hkept : id ∉ s.commands := fun hmem =>
      List.find?_eq_none.mp hnone id hmem (decide_eq_true rfl)
    have htimer : (s.command id).retryTimer = none := by
      cases hfound with
      | inl hsome => exact absurd (hnone.symm.trans hsome) (Option.some_ne_none id).symm
      | inr hgone => exact hgone.2
    exact h.logged hlive hkept htimer hends hother honce hanswered
  case h_2 found hsome =>
    rcases hfound with heq | ⟨hnone, -⟩
    · have hfoundId : found = id := Option.some.inj (hsome.symm.trans heq)
      subst hfoundId
      exact h.finish_write hlive hends hother honce hanswered
    · exact absurd (hsome.symm.trans hnone) (Option.some_ne_none _)

theorem send (h : AllInv s) (params : CommandParams) : AllInv (s.send params) := by
  have hmem : ∀ {id}, id ∈ (s.send params).queue → id ∈ s.queue ∨ id = s.count := fun hq =>
    (List.mem_append.mp hq).imp_right List.mem_singleton.mp
  refine ⟨?_, ?_, fun id => ?_⟩
  case refine_1 =>
    refine List.nodup_append.mpr ⟨h.nodup, List.nodup_singleton _, fun a ha b hb heq => ?_⟩
    rw [heq, List.mem_singleton.mp hb] at ha
    exact Nat.lt_irrefl _ (h.known _ ha)
  case refine_2 =>
    intro id hq
    cases hmem hq with
    | inl hold => exact Nat.lt_succ_of_lt (h.known id hold)
    | inr hnew => exact hnew ▸ Nat.lt_succ_self _
  case refine_3 =>
    by_cases hid : id = s.count
    case neg =>
      refine (h.inv id).frame (Function.update_of_ne hid _ _) (fun hkept => ?_) ?_ rfl
        (List.append_nil _).symm fun _ hmem => nomatch hmem
      · exact (List.mem_filter.mp hkept).1
      · rintro (hcount | hq)
        · exact .inl (Nat.le_of_succ_le hcount)
        · exact .inr ((hmem hq).resolve_right hid)
    case pos =>
      subst hid
      obtain ⟨hkept, -, -, hblock, hentry⟩ := (h.inv s.count).untouched (.inl le_rfl)
      have hcommand : (s.send params).command s.count = params.command := Function.update_self ..
      refine Inv.of_untouched ⟨fun hin => hkept (List.mem_filter.mp hin).1, ?_, ?_, hblock, hentry⟩
      · rw [hcommand]
        rfl
      · rw [hcommand]
        rfl

theorem runQueue (h : AllInv s) : AllInv s.runQueue := by
  unfold SigMeshLib.runQueue
  split
  case h_1 => exact h
  case h_2 id rest hqueue =>
    have hnodup : (id :: rest).Nodup := hqueue ▸ h.nodup
    have hrest : ∀ {id'}, id' ∈ rest → id' ∈ s.queue := fun hmem =>
      hqueue ▸ List.mem_cons_of_mem _ hmem
    have hhead : id ∈ s.queue := hqueue ▸ List.mem_cons_self
    refine ⟨(List.nodup_cons.mp hnodup).2, fun id' hmem => h.known id' (hrest hmem), fun id' => ?_⟩
    by_cases hid : id' = id
    case neg =>
      refine (h.inv id').frame ({ s with queue := rest }.modify_command_of_ne id _ hid)
        (fun hmem => ?_) (fun hq => hq.imp_right hrest) rfl rfl fun entry hmem habout => ?_
      · dsimp only [SigMeshLib.write] at hmem
        split at hmem
        · exact (List.mem_append.mp hmem).resolve_right fun hlast =>
            hid (List.mem_singleton.mp hlast)
        · exact hmem
      · cases List.mem_singleton.mp hmem
        exact hid habout.symm
    case pos =>
      subst hid
      obtain ⟨-, htimer, hsource, hblock, hentry⟩ := (h.inv id').untouched (.inr hhead)
      have hover : ¬ ∃ entry ∈ s.log ++ [LogEntry.sent id'], Ends id' entry := by
        intro hends
        obtain ⟨entry, hmem, hend⟩ := hends
        cases List.mem_append.mp hmem with
        | inl hold => exact hentry entry hold hend.about
        | inr hnew =>
          cases List.mem_singleton.mp hnew
          exact hend
      refine Inv.of_empty (fun hq => ?_) (fun _ => List.mem_append_right _ List.mem_cons_self) hover
        ?_ hblock
      · exact hq.elim (fun hcount => absurd (h.known id' hhead) (Nat.not_lt.mpr hcount))
          fun hmem => absurd hmem (List.nodup_cons.mp hnodup).1
      · refine (congrArg (·.responseSourceArray)
          ({ s with queue := rest }.modify_command id' (·.withResponse))).trans ?_
        dsimp only [SDKLibCommand.withResponse]
        split
        · exact hsource
        · exact hsource

/-- A block on the main queue is over, and its result is logged. -/
theorem consume (h : AllInv s) {block : MainBlock} {rest : List MainBlock}
    (hmain : s.main = block :: rest) (hkept : block.id ∉ s.commands)
    (htimer : (s.command block.id).retryTimer = none) {entries : List LogEntry}
    (hentries : entries = [] ∨ block.isPromise = true ∧
      (s.command block.id).resultCallback = true ∧ entries = [.result block.id true]) :
    AllInv ({ s with main := rest }.write entries) := by
  refine ⟨h.nodup, h.known, fun id => ?_⟩
  by_cases hid : id = block.id
  case neg =>
    refine (h.inv id).frame rfl (fun hmem => hmem) (fun hq => hq) ?_ rfl fun entry hmem habout => ?_
    · unfold SigMeshLib.about
      rw [hmain]
      exact (List.filter_cons_of_neg fun heq => hid (of_decide_eq_true heq).symm).symm
    · rcases hentries with rfl | ⟨-, -, rfl⟩
      · cases hmem
      · cases List.mem_singleton.mp hmem
        exact hid habout.symm
  case pos =>
    subst hid
    have hinv := h.inv block.id
    have habout : s.about block.id =
        block :: ({ s with main := rest }.write entries).about block.id := by
      unfold SigMeshLib.about
      rw [hmain]
      exact List.filter_cons_of_pos (decide_eq_true rfl)
    have hsub : ∀ {b}, b ∈ ({ s with main := rest }.write entries).about block.id →
        b ∈ s.about block.id := fun hmem => habout ▸ List.mem_cons_of_mem _ hmem
    have hhead : block ∈ s.about block.id := habout ▸ List.mem_cons_self
    exact {
      untouched := by
        intro hq
        have hnone := (hinv.untouched hq).noBlock
        rw [hnone] at hhead
        exact nomatch hhead
      sent := fun hmem => absurd hmem hkept
      gone := fun _ => ⟨hkept, htimer⟩
      once := by
        have hold := hinv.once
        have hcommand : ({ s with main := rest }.write entries).command = s.command := rfl
        have hlog : ({ s with main := rest }.write entries).log = s.log ++ entries := rfl
        unfold SigMeshLib.promised at hold ⊢
        rw [habout, List.countP_cons] at hold
        rw [hlog, hcommand, List.countP_append]
        rcases hentries with rfl | ⟨hpromise, hcallback, rfl⟩
        · -- nothing is logged: the promise, if it was one, is dropped
          rw [List.countP_nil]
          by_cases hcallback : (s.command block.id).resultCallback = true
          · rw [if_pos hcallback] at hold ⊢
            omega
          · rw [if_neg hcallback] at hold ⊢
            exact hold
        · -- the promise becomes the result
          rw [if_pos hcallback] at hold ⊢
          rw [if_pos hpromise] at hold
          have hnew : [LogEntry.result block.id true].countP (IsResult block.id ·) ≤ 1 :=
            List.countP_le_length
          omega
      finished := fun _ _ => ⟨hkept, htimer⟩
      enough := fun hmem => hinv.enough (hsub hmem)
      unasked := fun hmem => hinv.unasked (hsub hmem)
      distinct := hinv.distinct
      sources := fun source hmem => (hinv.sources source hmem).append entries
      answered := by
        rcases hentries with rfl | ⟨hpromise, -, rfl⟩
        · exact hinv.answered.append fun _ hmem => nomatch hmem
        · refine hinv.answered.snoc fun _ hpos => ?_
          cases block with
          | finishAndResult id =>
            exact hinv.enough_sources hhead
          | finish id => cases hpromise
          | result id => exact absurd (hinv.unasked hhead).2 (Nat.pos_iff_ne_zero.mp hpos)
      silent := by
        refine silent_append_ends hinv.silent fun entry hmem => ?_
        rcases hentries with rfl | ⟨-, -, rfl⟩
        · cases hmem
        · cases List.mem_singleton.mp hmem
          rfl }

/-- A command that a block is about is known. -/
theorem known_of_block (h : AllInv s) {block : MainBlock} (hmem : block ∈ s.main) :
    ¬ (s.count ≤ block.id ∨ block.id ∈ s.queue) := by
  intro hq
  have hnone := ((h.inv block.id).untouched hq).noBlock
  exact List.filter_eq_nil_iff.mp hnone block hmem (decide_eq_true rfl)

theorem runMain (h : AllInv s) : AllInv s.runMain := by
  unfold SigMeshLib.runMain
  split
  case h_1 => exact h
  case h_2 id rest hmain =>
    have hfinished := h.finish (h.known_of_block (hmain ▸ List.mem_cons_self))
    refine hfinished.consume hmain (s.not_mem_finish_commands id) (s.finish_timer id) ?_
    split
    case isTrue hcallback =>
      have hsame : ((s.commandResponseFinish id).command id).resultCallback = true := by
        rw [s.finish_command id]
        exact hcallback
      exact .inr ⟨rfl, hsame, rfl⟩
    case isFalse => exact .inl rfl
  case h_3 id rest hmain =>
    have hfinished := h.finish (h.known_of_block (hmain ▸ List.mem_cons_self))
    have hdone := hfinished.consume hmain (s.not_mem_finish_commands id) (s.finish_timer id)
      (.inl rfl)
    unfold SigMeshLib.write at hdone
    rwa [List.append_nil] at hdone
  case h_4 id rest hmain =>
    have habout : s.about id = .result id :: rest.filter (·.id = id) := by
      unfold SigMeshLib.about
      rw [hmain]
      exact List.filter_cons_of_pos (decide_eq_true rfl)
    obtain ⟨hkept, htimer⟩ := (h.inv id).finished _ habout
    have hasked := (h.inv id).unasked (habout ▸ List.mem_cons_self)
    exact h.consume hmain hkept htimer (.inr ⟨rfl, hasked.1, rfl⟩)

theorem next (h : AllInv s) {e : Event} (hturn : InTurn s e) : AllInv (s.next e) := by
  cases e with
  | send params => exact h.send params
  | runQueue => exact h.runQueue
  | runMain => exact h.runMain
  | receive _ _ _ => exact h.receive hturn
  | didSend _ _ => exact h.didSend hturn
  | failedToSend _ => exact h.failedToSend hturn
  | networkPdu isSegmented => exact h.networkPdu isSegmented
  | fire _ => exact h.fire hturn
  | cancel _ => exact h.cancel hturn

theorem initial : AllInv SigMeshLib.initial := by
  refine ⟨List.nodup_nil, nofun, fun id => ?_⟩
  exact Inv.of_untouched ⟨nofun, rfl, rfl, rfl, fun _ hmem => nomatch hmem⟩

theorem lifecycle (h : AllInv s) (id : ℕ) : Lifecycle s id where
  once := (Nat.le_add_right _ _).trans (h.inv id).once
  answered := fun before after heq hpos => (h.inv id).answered before _ after heq rfl hpos
  gone := by
    intro hends
    obtain ⟨hkept, htimer⟩ := (h.inv id).gone hends
    refine ⟨hkept, fun hqueue => ?_, htimer⟩
    obtain ⟨entry, hmem, hend⟩ := hends
    exact ((h.inv id).untouched (.inr hqueue)).noEntry entry hmem hend.about
  silent := (h.inv id).silent

end AllInv

/-- A cancel ends its command and no other exactly when it finds it. -/
theorem cancelEnds_iff (s : SigMeshLib) (id : ℕ) : CancelEnds s id ↔ CancelInTurn s id := by
  have hnext : s.next (.cancel id) = s.cancelSigMessageHandle id := rfl
  cases hfound : s.getCommandWithSendMessage (s.command id).opCode with
  | none =>
    have hcancel : s.next (.cancel id) = s.write [.cancelled id] := by
      rw [hnext, SigMeshLib.cancelSigMessageHandle, hfound]
    constructor
    · intro h
      obtain ⟨-, hqueue, htimer, hblock, -⟩ := h
      rw [hcancel] at hqueue htimer hblock
      refine ⟨hqueue, fun hpending => ?_, .inr ⟨hfound, htimer⟩⟩
      obtain ⟨block, hmem, hid⟩ := hpending
      exact hblock block hmem hid
    · intro h
      obtain ⟨hqueue, hnot, hleft⟩ := h
      have htimer := hleft.resolve_left fun hsome => by
        cases hfound.symm.trans hsome
      have hkept : id ∉ s.commands := fun hmem =>
        List.find?_eq_none.mp hfound id hmem (decide_eq_true rfl)
      constructor
      all_goals rw [hcancel]
      · exact hkept
      · exact hqueue
      · exact htimer.2
      · exact fun block hmem hid => hnot ⟨block, hmem, hid⟩
      · exact fun id' _ => ⟨rfl, Iff.rfl⟩
  | some found =>
    have hcancel : s.next (.cancel id) = (s.commandResponseFinish found).write [.cancelled id] := by
      rw [hnext, SigMeshLib.cancelSigMessageHandle, hfound]
    constructor
    · intro h
      obtain ⟨-, hqueue, -, hblock, hothers⟩ := h
      rw [hcancel] at hqueue hblock hothers
      refine ⟨hqueue, fun hpending => ?_, .inl ?_⟩
      · obtain ⟨block, hmem, hid⟩ := hpending
        exact hblock block hmem hid
      · by_contra hne
        have hfoundId : found ≠ id := fun heq => hne (heq ▸ hfound)
        have hin : found ∈ s.commands := List.mem_of_find?_eq_some hfound
        exact s.not_mem_finish_commands found ((hothers found hfoundId).2.mpr hin)
    · intro h
      obtain ⟨hqueue, hnot, hleft⟩ := h
      have hsame : found = id := by
        rcases hleft with hsome | ⟨hnone, -⟩
        · exact Option.some.inj (hfound.symm.trans hsome)
        · cases hfound.symm.trans hnone
      subst hsame
      constructor
      all_goals rw [hcancel]
      · exact s.not_mem_finish_commands found
      · exact hqueue
      · exact s.finish_timer found
      · exact fun block hmem hid => hnot ⟨block, hmem, hid⟩
      · exact fun id' hne => ⟨s.finish_command_of_ne found hne,
          (s.mem_finish_commands found).trans (and_iff_left hne)⟩

/-! ### A run -/

/-- **Commands in turn.**  In a run whose events are all in turn every command has its
`Lifecycle`, and a cancel in turn ends its command and no other. -/
theorem commands_lifecycle (events : List Event) (id : ℕ)
    (hrun : GoodRun SigMeshLib.next InTurn SigMeshLib.initial events) :
    Lifecycle (events.foldl SigMeshLib.next SigMeshLib.initial) id ∧
      ∀ before after, events = before ++ .cancel id :: after →
        CancelEnds (before.foldl SigMeshLib.next SigMeshLib.initial) id := by
  have hinv := hrun.inv AllInv.initial fun _ _ h hturn => h.next hturn
  refine ⟨hinv.lifecycle id, fun before after heq => ?_⟩
  rw [heq, goodRun_append] at hrun
  obtain ⟨-, hturn, -⟩ := hrun
  exact (cancelEnds_iff _ id).mpr hturn.2

/-- Get of the on-off state of a node. -/
def getOnOff (destination : BitVec 16) (retryCount : ℕ) : CommandParams :=
  ⟨0x8201, some 0x8204, true, destination, 1, retryCount, true, false⟩

def onOffStatus : ReceivedMessage := ⟨.generic, 0x8204⟩

/-- Two commands with one opcode: the first is sent again and is cancelled, the second is answered
in between. -/
def twoCommands : List Event :=
  [.send (getOnOff 2 2), .send (getOnOff 3 2), .runQueue, .runQueue, .didSend 0x8201 false,
    .networkPdu true, .fire 0, .receive onOffStatus 3 true, .runMain, .cancel 0]

theorem commands_lifecycle_sample :
    Lifecycle (twoCommands.foldl SigMeshLib.next SigMeshLib.initial) 0 ∧
      ∀ before after, twoCommands = before ++ .cancel 0 :: after →
        CancelEnds (before.foldl SigMeshLib.next SigMeshLib.initial) 0 :=
  commands_lifecycle twoCommands 0 (by decide +kernel)

/-- A command that is not sent again fails, and is answered then. -/
def failedCommand : List Event :=
  [.send (getOnOff 2 0), .runQueue, .failedToSend 0x8201, .receive onOffStatus 2 true, .runMain]

/-- The failed command has two results, and a cancel of the second of two commands ends the
first. -/
theorem commands_lifecycle_refuted :
    ¬ Lifecycle (failedCommand.foldl SigMeshLib.next SigMeshLib.initial) 0 ∧
      ¬ CancelEnds ([Event.send (getOnOff 2 2), .send (getOnOff 3 2), .runQueue, .runQueue].foldl
        SigMeshLib.next SigMeshLib.initial) 1 := by
  constructor
  · intro h
    have hcount : (failedCommand.foldl SigMeshLib.next SigMeshLib.initial).log.countP
        (IsResult 0 ·) = 2 := by
      decide +kernel
    exact absurd h.once (hcount ▸ Nat.not_succ_le_self 1)
  · rw [cancelEnds_iff]
    unfold CancelInTurn
    decide +kernel

end PirMesh.MeshLib
