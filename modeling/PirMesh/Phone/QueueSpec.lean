import Mathlib.Data.List.Sort
import PirMesh.Phone.QueueFlow

/-! # Phone — The queue of a destination (`SigUpperTransportLayer.m`)

A queue stops where a busy node answers, loses a message where the handle of the head is
cancelled, and mixes messages up where two of them have one SeqZero; in every other run each
message starts in its turn. -/

namespace PirMesh

open Run

namespace LowerTransport

namespace Sender

variable {manager : SigNetworkManager} {s t : Sender} {counts : Counts}

/-! ### Cancelling -/

section

variable {but : BitVec 16 → Prop} {d : BitVec 16} {keep : SigUpperTransportModel → Bool}

/-- The queue of a destination with what a cancel leaves of it. -/
def filterQueue (s : Sender) (d : BitVec 16) (keep : SigUpperTransportModel → Bool) : Sender :=
  s.setQueue d ((s.queues d).filter keep)

theorem queues_filterQueue_self (s : Sender) (d : BitVec 16)
    (keep : SigUpperTransportModel → Bool) :
    (s.filterQueue d keep).queues d = (s.queues d).filter keep :=
  queues_setQueue_self ..

theorem queues_filterQueue_of_ne (s : Sender) {d' : BitVec 16} (hd : d' ≠ d)
    (keep : SigUpperTransportModel → Bool) : (s.filterQueue d keep).queues d' = s.queues d' :=
  queues_setQueue_of_ne s hd _

theorem mem_of_mem_filterQueue {d' : BitVec 16} {m : SigUpperTransportModel}
    (hm : m ∈ (s.filterQueue d keep).queues d') : m ∈ s.queues d' := by
  by_cases hd : d' = d
  · rw [hd, queues_filterQueue_self] at hm
    exact hd ▸ (List.mem_filter.mp hm).1
  · exact queues_filterQueue_of_ne s hd keep ▸ hm

variable (hhead : ∀ m queue, s.queues d = m :: queue → but d ∨ keep m = true)

include hhead

/-- A head that is in account stays. -/
theorem filter_queue_cons {m : SigUpperTransportModel} {queue : List SigUpperTransportModel}
    (hbut : ¬ but d) (hqueue : s.queues d = m :: queue) :
    (s.queues d).filter keep = m :: queue.filter keep := by
  rw [hqueue]
  exact List.filter_cons_of_pos ((hhead m queue hqueue).resolve_left hbut)

theorem exists_head_of_filterQueue {d' : BitVec 16} {m : SigUpperTransportModel}
    {queue : List SigUpperTransportModel} (hbut : ¬ but d')
    (hqueue : (s.filterQueue d keep).queues d' = m :: queue) :
    ∃ queue', s.queues d' = m :: queue' := by
  by_cases hd : d' = d
  · rw [hd, queues_filterQueue_self] at hqueue
    cases hbefore : s.queues d with
    | nil =>
      rw [hbefore] at hqueue
      cases hqueue
    | cons m' queue' =>
      rw [filter_queue_cons hhead (hd ▸ hbut) hbefore] at hqueue
      cases hqueue
      exact ⟨queue', hd ▸ hbefore⟩
  · exact ⟨queue, (queues_filterQueue_of_ne s hd keep).symm.trans hqueue⟩

/-- What waits behind the head is kept behind it, or cancelled. -/
theorem tail_filterQueue {m : SigUpperTransportModel} (hbut : ¬ but d)
    (hm : m ∈ (s.queues d).tail) (hkeep : keep m = true) :
    m ∈ ((s.filterQueue d keep).queues d).tail := by
  rw [queues_filterQueue_self]
  cases hqueue : s.queues d with
  | nil =>
    rw [hqueue] at hm
    exact absurd hm List.not_mem_nil
  | cons m' queue =>
    rw [hqueue] at hm
    rw [← hqueue, filter_queue_cons hhead hbut hqueue]
    exact List.mem_filter.mpr ⟨hm, hkeep⟩

theorem FlowBut.kept_of_filterQueue (h : FlowBut but s)
    (hcancelled : ∀ m ∈ s.queues d, keep m = false → .cancelled m ∈ s.log) :
    ∀ m ∈ enqueuedModels s.log, .cancelled m ∈ s.log ∨ m ∈ startedModels s.log ∨
      m ∈ ((s.filterQueue d keep).queues m.pdu.destination).tail ∨
        (but m.pdu.destination ∧ m ∈ (s.filterQueue d keep).queues m.pdu.destination) := by
  intro m hm
  have hwaits : m ∈ s.queues d → keep m = true → m ∈ (s.filterQueue d keep).queues d := by
    intro hin hkeep
    rw [queues_filterQueue_self]
    exact List.mem_filter.mpr ⟨hin, hkeep⟩
  rcases h.kept m hm with hbefore | hstarted | htail | hopen
  · exact .inl hbefore
  · exact .inr (.inl hstarted)
  · by_cases hd : m.pdu.destination = d
    · rw [hd] at htail ⊢
      cases hkeep : keep m with
      | false => exact .inl (hcancelled m (List.mem_of_mem_tail htail) hkeep)
      | true =>
        by_cases hbut : but d
        · exact .inr (.inr (.inr ⟨hbut, hwaits (List.mem_of_mem_tail htail) hkeep⟩))
        · exact .inr (.inr (.inl (tail_filterQueue hhead hbut htail hkeep)))
    · rw [queues_filterQueue_of_ne s hd]
      exact .inr (.inr (.inl htail))
  · by_cases hd : m.pdu.destination = d
    · rw [hd] at hopen ⊢
      cases hkeep : keep m with
      | false => exact .inl (hcancelled m hopen.2 hkeep)
      | true => exact .inr (.inr (.inr ⟨hopen.1, hwaits hopen.2 hkeep⟩))
    · rw [queues_filterQueue_of_ne s hd]
      exact .inr (.inr (.inr hopen))

end

/-- Cancelled messages leave a queue, the head stays or is out of account. -/
theorem FlowBut.filter {but : BitVec 16 → Prop} (h : FlowBut but s) {d : BitVec 16}
    (keep : SigUpperTransportModel → Bool)
    (hhead : ∀ m queue, s.queues d = m :: queue → but d ∨ keep m = true)
    (hcancelled : ∀ m ∈ s.queues d, keep m = false → .cancelled m ∈ s.log) :
    FlowBut but (s.filterQueue d keep) := by
  refine ⟨fun d' m hm => h.unicast d' m (mem_of_mem_filterQueue hm), ?_, ?_, ?_,
    h.kept_of_filterQueue hhead hcancelled⟩
  · intro d' m queue hbut hqueue
    obtain ⟨queue', hbefore⟩ := exists_head_of_filterQueue hhead hbut hqueue
    exact (h.head d' m queue' hbut hbefore).congr (fun _ h => h) rfl rfl
  · intro z array harray
    obtain ⟨d', m, queue, hbut, hqueue, hz⟩ := h.belongs z array harray
    by_cases hd : d' = d
    · refine ⟨d', m, queue.filter keep, hbut, ?_, hz⟩
      rw [hd, queues_filterQueue_self]
      exact filter_queue_cons hhead (hd ▸ hbut) (hd ▸ hqueue)
    · exact ⟨d', m, queue, hbut, (queues_filterQueue_of_ne s hd keep).trans hqueue, hz⟩
  · exact fun d' d'' m m' hm hm' =>
      h.distinct d' d'' m m' (mem_of_mem_filterQueue hm) (mem_of_mem_filterQueue hm')

/-- The outputs of a cancel. -/
theorem cancelled_eq (models : List SigUpperTransportModel) : ∀ s : Sender, ∃ t : Sender,
    models.foldl (fun s m => s.write (.cancelled m)) s = t ∧ t.queues = s.queues ∧
      t.outgoingSegments = s.outgoingSegments ∧
      t.segmentTransmissionTimers = s.segmentTransmissionTimers ∧ Quiet s.log t.log ∧
      ∀ m ∈ models, .cancelled m ∈ t.log := by
  induction models with
  | nil =>
    exact fun s => ⟨s, rfl, rfl, rfl, rfl, Quiet.refl _, fun _ hm => absurd hm List.not_mem_nil⟩
  | cons model models ih =>
    intro s
    obtain ⟨t, ht, hqueues, houtgoing, htimers, hlog, hall⟩ := ih (s.write (.cancelled model))
    have hone : Quiet s.log (s.log ++ [.cancelled model]) := (Quiet.refl _).append rfl rfl
    refine ⟨t, ht, hqueues, houtgoing, htimers, ?_, ?_⟩
    · exact ⟨fun _ ho => hlog.subset (hone.subset ho), hlog.enqueued.trans hone.enqueued,
        hlog.started.trans hone.started⟩
    · intro m hm
      rcases List.mem_cons.mp hm with hself | hrest
      · exact hself ▸ hlog.subset (List.mem_append_right _ List.mem_cons_self)
      · exact hall m hrest

/-- The handle is not that of a head with other messages behind it. -/
def CancelsWhole (s : Sender) (handle : SigMessageHandle) : Prop :=
  ∀ m ∈ (s.queues handle.destination).head?,
    m.pdu.opCode = handle.opCode ∧ m.pdu.source = handle.source →
      ∀ m' ∈ (s.queues handle.destination).tail, handle.isOf m' = true

section

variable {d : BitVec 16} {model : SigUpperTransportModel} {queue : List SigUpperTransportModel}
  {keep : SigUpperTransportModel → Bool}

/-- The head is stopped and all behind it cancelled. -/
theorem flow_cancelHead (h : Flow s) (hqueue : s.queues d = model :: queue)
    (hqueues : t.queues = s.queues) (houtgoing : t.outgoingSegments = s.outgoingSegments)
    (htimers : t.segmentTransmissionTimers = s.segmentTransmissionTimers)
    (hlog : Quiet s.log t.log) (hrest : ∀ m ∈ queue, keep m = false)
    (hcancelled : ∀ m ∈ model :: queue, keep m = false → .cancelled m ∈ t.log) :
    Flow ((cancelSending model.pdu t).setQueue d []) := by
  have htouched : Touched model.pdu.sequenceZero s
      (t.setTransmissionTimer model.pdu.sequenceZero none) :=
    ⟨hqueues, hlog, fun _ _ => congrFun houtgoing _, fun z hz =>
      (setTransmissionTimer_of_ne t hz none).trans (congrFun htimers z)⟩
  have hpopped := FlowBut.popped h hqueue htouched
  have hbehind : (((t.setTransmissionTimer model.pdu.sequenceZero none).setQueue d
      queue).setOutgoing model.pdu.sequenceZero none).queues d = queue := queues_setQueue_self ..
  have hempty := hpopped.filter keep (fun _ _ _ => .inl rfl) fun m hm hof =>
    hcancelled m (List.mem_cons_of_mem _ (hbehind ▸ hm)) hof
  have hnil : queue.filter keep = [] :=
    List.filter_eq_nil_iff.mpr fun m hm => by rw [hrest m hm]; exact Bool.false_ne_true
  unfold filterQueue at hempty
  rw [hbehind, hnil] at hempty
  refine (hempty.flow_of_nil (queues_setQueue_self ..)).quiet ?_ (Quiet.refl _) rfl rfl
  exact (Function.update_idem ..).symm

/-- The head stays, what matches behind it is cancelled. -/
theorem flow_cancelBehind (h : Flow s) (hqueue : s.queues d = model :: queue)
    (hqueues : t.queues = s.queues) (houtgoing : t.outgoingSegments = s.outgoingSegments)
    (htimers : t.segmentTransmissionTimers = s.segmentTransmissionTimers)
    (hlog : Quiet s.log t.log) (hkeep : keep model = true)
    (hcancelled : ∀ m ∈ model :: queue, keep m = false → .cancelled m ∈ t.log) :
    Flow (t.setQueue d ((model :: queue).filter keep)) := by
  have htqueue : t.queues d = model :: queue := (congrFun hqueues _).trans hqueue
  have hflow : Flow t := h.quiet hqueues hlog houtgoing htimers
  rw [← htqueue]
  refine FlowBut.filter hflow keep (fun m queue' hcons => .inr ?_) (htqueue ▸ hcancelled)
  rw [htqueue] at hcons
  cases hcons
  exact hkeep

end

/-- **A cancel** takes off what it matches, where it leaves nothing behind a head. -/
theorem flow_cancelHandle {handle : SigMessageHandle} (h : Flow s)
    (hwhole : CancelsWhole s handle) :
    Flow (cancelHandle manager handle s) ∧
      (cancelHandle manager handle s).queues = Function.update s.queues handle.destination
        ((s.queues handle.destination).filter fun m => !handle.isOf m) := by
  unfold CancelsWhole at hwhole
  unfold cancelHandle
  cases hqueue : s.queues handle.destination with
  | nil =>
    refine ⟨h, ?_⟩
    change s.queues = Function.update s.queues handle.destination []
    rw [← hqueue, Function.update_eq_self]
  | cons model queue =>
    rw [hqueue] at hwhole
    dsimp only
    obtain ⟨hown, -, -⟩ := h.unicast _ model (hqueue ▸ List.mem_cons_self)
    obtain ⟨t, ht, hqueues, houtgoing, htimers, hlog, hall⟩ :=
      cancelled_eq ((model :: queue).filter handle.isOf) s
    rw [ht]
    have hcancelled : ∀ m ∈ model :: queue, (!handle.isOf m) = false →
        .cancelled m ∈ t.log := by
      intro m hm hof
      exact hall m (List.mem_filter.mpr ⟨hm, by simpa using hof⟩)
    by_cases hhead : model.pdu.opCode = handle.opCode ∧ model.pdu.source = handle.source
    · have hrest : ∀ m ∈ queue, (!handle.isOf m) = false := by
        intro m hm
        rw [hwhole model rfl hhead m hm]
        rfl
      have hself : (!handle.isOf model) = false := by
        rw [show handle.isOf model = true from decide_eq_true ⟨hhead.1, hhead.2, hown⟩]
        rfl
      have hnil : (model :: queue).filter (fun m => !handle.isOf m) = [] := by
        refine List.filter_eq_nil_iff.mpr fun m hm => ?_
        rw [(List.forall_mem_cons.mpr ⟨hself, hrest⟩ : ∀ m ∈ model :: queue, _) m hm]
        exact Bool.false_ne_true
      rw [if_pos (decide_eq_true hhead), if_pos (decide_eq_true hhead), hnil]
      -- with its queue empty, nothing is sent after the head
      have hdone : didSend manager handle.destination ((cancelSending model.pdu t).setQueue
          handle.destination []) = (cancelSending model.pdu t).setQueue handle.destination [] := by
        unfold didSend
        rw [queues_setQueue_self]
      rw [hdone]
      exact ⟨flow_cancelHead h hqueue hqueues houtgoing htimers hlog hrest hcancelled,
        congrArg (Function.update · _ _) hqueues⟩
    · have hself : handle.isOf model = false :=
        decide_eq_false fun hof => hhead ⟨hof.1, hof.2.1⟩
      have hno : decide (model.pdu.opCode = handle.opCode ∧ model.pdu.source = handle.source) =
          false := decide_eq_false hhead
      rw [hno, if_neg Bool.false_ne_true, if_neg Bool.false_ne_true]
      refine ⟨flow_cancelBehind h hqueue hqueues houtgoing htimers hlog ?_ hcancelled,
        congrArg (Function.update · _ _) hqueues⟩
      rw [hself]
      rfl

/-! ### Sending -/

section

variable {model : SigUpperTransportModel} {but : BitVec 16 → Prop}
  (hbut : ∀ d, but d ↔ d = model.pdu.destination ∧ s.queues model.pdu.destination = [])

include hbut

/-- The queue that is left open is the one the message is alone in. -/
theorem exists_head_of_joined (hjoin : Joined s t model) {d : BitVec 16}
    {m : SigUpperTransportModel} {queue : List SigUpperTransportModel} (hno : ¬ but d)
    (hqueue : t.queues d = m :: queue) : ∃ queue', s.queues d = m :: queue' := by
  cases hbefore : s.queues d with
  | cons m' queue' =>
    rw [hjoin.head hbefore] at hqueue
    cases hqueue
    exact ⟨queue', rfl⟩
  | nil =>
    rcases hjoin.mem (hqueue ▸ List.mem_cons_self : m ∈ t.queues d) with hold | hnew
    · rw [hbefore] at hold
      exact absurd hold List.not_mem_nil
    · exact absurd ((hbut d).mpr ⟨hnew.1, hnew.1 ▸ hbefore⟩) hno

theorem kept_of_joined (h : Flow s) (hjoin : Joined s t model) :
    ∀ m ∈ enqueuedModels t.log, .cancelled m ∈ t.log ∨ m ∈ startedModels t.log ∨
      m ∈ (t.queues m.pdu.destination).tail ∨
        (but m.pdu.destination ∧ m ∈ t.queues m.pdu.destination) := by
  intro m hm
  rw [hjoin.enqueued] at hm
  rcases List.mem_append.mp hm with hold | hnew
  · rcases h.kept m hold with hcancelled | hbefore | htail | hopen
    · rw [hjoin.log]
      exact .inl (List.mem_append_left _ hcancelled)
    · exact .inr (.inl (hjoin.started ▸ hbefore))
    · exact .inr (.inr (.inl (hjoin.tail_subset htail)))
    · exact absurd hopen.1 id
  · rw [List.mem_singleton.mp hnew]
    refine .inr (.inr ?_)
    rw [hjoin.self]
    cases hqueue : s.queues model.pdu.destination with
    | nil => exact .inr ⟨(hbut _).mpr ⟨rfl, hqueue⟩, List.mem_cons_self⟩
    | cons head queue => exact .inl (List.mem_append_right _ List.mem_cons_self)

/-- **A message joins** its queue with a SeqZero of its own. -/
theorem FlowBut.joined (h : Flow s) (hjoin : Joined s t model)
    (hunicast : isUnicastAddress model.pdu.destination = true) (hcount : 0 < model.pdu.count)
    (hnumber : ∀ d, ∀ m ∈ s.queues d, m.pdu.sequenceZero ≠ model.pdu.sequenceZero) :
    FlowBut but t := by
  refine ⟨?_, ?_, ?_, ?_, kept_of_joined hbut h hjoin⟩
  · intro d m hm
    rcases hjoin.mem hm with hold | hnew
    · exact h.unicast d m hold
    · rw [hnew.1, hnew.2]
      exact ⟨rfl, hunicast, hcount⟩
  · intro d m queue hno hqueue
    obtain ⟨queue', hbefore⟩ := exists_head_of_joined hbut hjoin hno hqueue
    exact (h.head d m queue' id hbefore).congr (fun _ h => hjoin.started ▸ h)
      (hjoin.outgoing ▸ rfl) (hjoin.timers ▸ rfl)
  · intro z array harray
    obtain ⟨d, m, queue, -, hqueue, hz⟩ := h.belongs z array (hjoin.outgoing ▸ harray)
    refine ⟨d, m, _, fun hd => ?_, hjoin.head hqueue, hz⟩
    obtain ⟨heq, hnil⟩ := (hbut d).mp hd
    rw [heq, hnil] at hqueue
    cases hqueue
  · intro d d' m m' hm hm' hz
    rcases hjoin.mem hm with hold | hnew
    · rcases hjoin.mem hm' with hold' | hnew'
      · exact h.distinct d d' m m' hold hold' hz
      · rw [hnew'.2] at hz
        exact absurd hz (hnumber d m hold)
    · rcases hjoin.mem hm' with hold' | hnew'
      · rw [hnew.2] at hz
        exact absurd hz.symm (hnumber d' m' hold')
      · rw [hnew.2, hnew'.2]

end

theorem flow_enqueue {pdu : SigUpperTransportPdu} (h : Flow s)
    (hunicast : isUnicastAddress pdu.destination = true) (hcount : 0 < pdu.count)
    (hnumber : ∀ d, ∀ m ∈ s.queues d, m.pdu.sequenceZero ≠ pdu.sequenceZero) :
    Flow (enqueue manager pdu s) := by
  unfold enqueue
  dsimp only
  cases hqueue : s.queues pdu.destination with
  | nil =>
    have halone : ∀ d, d = pdu.destination ↔ d = pdu.destination ∧ s.queues pdu.destination = [] :=
      fun d => ⟨fun hd => ⟨hd, hqueue⟩, fun hd => hd.1⟩
    have hopen := FlowBut.joined halone h (joined_write s pdu) hunicast hcount hnumber
    rw [hqueue] at hopen
    have hone : ([] ++ [SigUpperTransportModel.mk s.models pdu]).length = 1 := rfl
    rw [if_pos hone]
    have hbegun : Begun manager ⟨s.models, pdu⟩ ((Sender.write { s with models := s.models + 1 }
        (.enqueued ⟨s.models, pdu⟩)).setQueue pdu.destination
          ([] ++ [SigUpperTransportModel.mk s.models pdu])) (sendNext manager pdu.destination
            ([] ++ [SigUpperTransportModel.mk s.models pdu])
              ((Sender.write { s with models := s.models + 1 }
                (.enqueued ⟨s.models, pdu⟩)).setQueue pdu.destination
                  ([] ++ [SigUpperTransportModel.mk s.models pdu]))) :=
      begun_sendSegmented hunicast hcount _
    exact hopen.flow_of_begun (queues_setQueue_self ..) hbegun
  | cons head queue =>
    have hnone : ∀ d : BitVec 16, False ↔ d = pdu.destination ∧ s.queues pdu.destination = [] :=
      fun d => ⟨False.elim, fun hd => by rw [hqueue] at hd; exact nomatch hd.2⟩
    have hwaits := FlowBut.joined hnone h (joined_write s pdu) hunicast hcount hnumber
    rw [hqueue] at hwaits
    rw [if_neg (by simp)]
    exact hwaits

/-! ### Runs -/

/-- What an event must not do: join a message to a group, or one with the SeqZero of another
message; be busy for a head; cancel a head before other messages. -/
def Orderly (manager : SigNetworkManager) (s : Sender) : Event → Prop
  | .sendAccessPdu pdu _ _ =>
    15 < (pdu.upperTransportPdu manager.ssl manager.ivIndex s.sno).transportPdu.length ∨
        pdu.isSegmented = true →
      isUnicastAddress pdu.destination = true ∧ ∀ m ∈ enqueuedModels s.log,
        m ∈ s.queues m.pdu.destination → m.pdu.sequenceZero ≠ sequenceZeroOf s.sno
  | .acknowledgment ack =>
    ack.isBusy = true → firstNotAcknowledgedFrom (s.outgoing ack.sequenceZero) = none
  | .cancel handle => CancelsWhole s handle
  | _ => True

instance (manager : SigNetworkManager) : ∀ (s : Sender) (e : Event),
    Decidable (Orderly manager s e)
  | s, .sendAccessPdu pdu _ _ =>
    inferInstanceAs (Decidable (15 < (pdu.upperTransportPdu manager.ssl manager.ivIndex
      s.sno).transportPdu.length ∨ pdu.isSegmented = true →
        isUnicastAddress pdu.destination = true ∧ ∀ m ∈ enqueuedModels s.log,
          m ∈ s.queues m.pdu.destination → m.pdu.sequenceZero ≠ sequenceZeroOf s.sno))
  | s, .acknowledgment ack =>
    inferInstanceAs (Decidable (ack.isBusy = true →
      firstNotAcknowledgedFrom (s.outgoing ack.sequenceZero) = none))
  | s, .cancel handle =>
    inferInstanceAs (Decidable (∀ m ∈ (s.queues handle.destination).head?,
      m.pdu.opCode = handle.opCode ∧ m.pdu.source = handle.source →
        ∀ m' ∈ (s.queues handle.destination).tail, handle.isOf m' = true))
  | _, .transmissionTimer _ | _, .txTimeout _ _ | _, .sendAck _ _ | _, .received _
  | _, .bearer _ => inferInstanceAs (Decidable True)

/-- A ciphertext is not empty. -/
theorem count_pos (pdu : OutgoingAccessPdu) (ivIndex sequence : BitVec 32) :
    0 < (pdu.upperTransportPdu manager.ssl ivIndex sequence).count := by
  unfold SigUpperTransportPdu.count OutgoingAccessPdu.upperTransportPdu
  dsimp only
  rw [manager.ssl.length_calculateCCM]
  have hmic : 4 ≤ pdu.transportMicSize.toNat := by
    unfold OutgoingAccessPdu.transportMicSize
    split_ifs
    · exact Nat.le_refl 4
    · exact Nat.le_add_left 4 4
  exact Nat.div_pos (by omega) (by decide)

/-- A network PDU of its own changes no queue. -/
theorem Flow.send (h : Flow s) (pdu : LowerPdu) : Flow (sendLowerTransportPdu manager pdu s) := by
  unfold sendLowerTransportPdu
  dsimp only
  split_ifs
  · exact h.quiet rfl (Quiet.refl _) rfl rfl
  · exact h.quiet rfl (Quiet.refl _) rfl rfl
  · exact h

theorem networkKeeps_flow : NetworkKeeps manager Flow :=
  ⟨fun _ pdu h => h.send pdu, fun _ _ h => h.quiet rfl (Quiet.refl _) rfl rfl⟩

theorem flow_sendAccessPdu {pdu : OutgoingAccessPdu} (command isSending : Bool) (h : Flow s)
    (hshape : Shape anyAck s) (hgood : Orderly manager s (.sendAccessPdu pdu command isSending)) :
    Flow (sendAccessPdu manager pdu command isSending s) := by
  unfold sendAccessPdu
  dsimp only
  have hencrypted : Flow { s with
      encrypted := s.encrypted ++ [pdu.upperTransportPdu manager.ssl manager.ivIndex s.sno] } :=
    h.quiet rfl (Quiet.refl _) rfl rfl
  by_cases hlong : 15 < (pdu.upperTransportPdu manager.ssl manager.ivIndex
      s.sno).transportPdu.length ∨ pdu.isSegmented = true
  · rw [if_pos hlong]
    obtain ⟨hunicast, hnumber⟩ := hgood hlong
    refine flow_enqueue hencrypted hunicast (count_pos pdu _ _) fun d m hm => ?_
    obtain ⟨hown, henqueued⟩ := hshape.own d m hm
    exact hnumber m henqueued (hown.symm ▸ hm)
  · rw [if_neg hlong]
    split_ifs
    · exact hencrypted.send _
    · exact networkKeeps_flow.other hencrypted _ _

/-- **One step.** -/
theorem flow_next {e : Event} (h : Flow s) (hshape : Shape anyAck s)
    (hgood : Orderly manager s e) : Flow (next manager s e) := by
  cases e with
  | sendAccessPdu pdu command isSending => exact flow_sendAccessPdu command isSending h hshape hgood
  | acknowledgment ack => exact flow_acknowledgment ack hshape h hgood
  | transmissionTimer sequenceZero => exact flow_transmissionTimer sequenceZero hshape h
  | txTimeout address sequenceZero => exact flow_txTimeout address sequenceZero hshape h
  | cancel handle => exact (flow_cancelHandle h hgood).1
  | sendAck ack isSending => exact networkKeeps_flow.ack h ack isSending
  | received sequence => exact h.quiet rfl (Quiet.refl _) rfl rfl
  | bearer isOpen => exact h.quiet rfl (Quiet.refl _) rfl rfl

theorem flow_init (sno : BitVec 32) : Flow (init sno) where
  unicast := fun _ _ hm => absurd hm List.not_mem_nil
  head := fun _ _ _ _ hqueue => nomatch hqueue
  belongs := fun _ _ harray => nomatch harray
  distinct := fun _ _ _ _ hm => absurd hm List.not_mem_nil
  kept := fun _ hm => absurd hm List.not_mem_nil

/-! ### What holds of the queues -/

/-- **The send queues.** -/
structure Queued (manager : SigNetworkManager) (s : Sender) : Prop where
  /-- Outgoing segments to one destination are of one message. -/
  one : ∀ z z' seg seg', some seg ∈ s.outgoing z → some seg' ∈ s.outgoing z' →
    seg.segment.destination = seg'.segment.destination → z = z' ∧ seg.number = seg'.number
  /-- Those of a destination start in the order of the queue. -/
  order : ∀ d, ((startedModels s.log).filter (·.pdu.destination = d)).Sublist
    ((enqueuedModels s.log).filter (·.pdu.destination = d))
  /-- A message that is not cancelled starts once, or waits behind an outstanding one. -/
  each : ∀ m ∈ enqueuedModels s.log, .cancelled m ∈ s.log ∨ (startedModels s.log).count m = 1 ∨
    (m ∉ startedModels s.log ∧ ∃ head queue,
      s.queues m.pdu.destination = head :: queue ∧ m ∈ queue ∧ Outstanding s head)
  /-- A cancel takes off what the handle matches. -/
  cancel : ∀ handle, CancelsWhole s handle → (cancelHandle manager handle s).queues =
    Function.update s.queues handle.destination
      ((s.queues handle.destination).filter fun m => !handle.isOf m)

/-- A segment under a SeqZero is of the head of its destination. -/
theorem Flow.head_of_mem (h : Flow s) (hshape : Shape counts s) {z : BitVec 16}
    {seg : OutgoingSegment} (hmem : some seg ∈ s.outgoing z) :
    ∃ m queue, s.queues seg.segment.destination = m :: queue ∧ m.pdu.sequenceZero = z ∧
      seg.number = m.number := by
  have hfirst : (firstNotAcknowledgedFrom (s.outgoing z)).isSome = true := by
    rw [← hasMore_eq]
    exact List.any_eq_true.mpr ⟨some seg, hmem, rfl⟩
  obtain ⟨first, hfirst⟩ := Option.isSome_iff_exists.mp hfirst
  obtain ⟨m, queue, hqueue, hz, -, -, harray, -, -⟩ := h.head_of_first hshape hfirst
  rw [outgoing_eq harray] at hmem
  obtain ⟨hnumber, hdestination⟩ :=
    SigUpperTransportModel.of_mem_segments (SigUpperTransportModel.mem_masked hmem)
  exact ⟨m, queue, hdestination ▸ hqueue, hz, hnumber⟩

/-- A message starts at most once. -/
theorem count_started (h : Entries counts s.log) {m : SigUpperTransportModel}
    (hm : m ∈ startedModels s.log) : (startedModels s.log).count m = 1 := by
  have hnodup : (startedModels s.log).Nodup := by
    refine h.startedOrder.imp fun hlt heq => ?_
    exact Nat.ne_of_lt (hlt (congrArg (·.pdu.destination) heq)) (congrArg (·.number) heq)
  exact hnodup.count.trans (if_pos hm)

theorem started_sublist (h : Entries counts s.log) (d : BitVec 16) :
    ((startedModels s.log).filter (·.pdu.destination = d)).Sublist
      ((enqueuedModels s.log).filter (·.pdu.destination = d)) := by
  have hstarted : ((startedModels s.log).filter (·.pdu.destination = d)).Pairwise
      (·.number < ·.number) := by
    refine List.pairwise_filter.mpr (h.startedOrder.imp fun hlt ha hb => hlt ?_)
    exact (of_decide_eq_true ha).trans (of_decide_eq_true hb).symm
  have henqueued : ((enqueuedModels s.log).filter (·.pdu.destination = d)).Pairwise
      (·.number < ·.number) := h.increasing.filter _
  have : Std.Antisymm fun a b : SigUpperTransportModel => a.number < b.number :=
    ⟨fun a b hlt hgt => absurd hgt (Nat.lt_asymm hlt)⟩
  refine List.sublist_of_subperm_of_pairwise (List.Nodup.subperm ?_ ?_) hstarted henqueued
  · refine hstarted.imp fun hlt heq => ?_
    exact Nat.ne_of_lt hlt (congrArg (·.number) heq)
  · intro m hm
    obtain ⟨hin, hd⟩ := List.mem_filter.mp hm
    exact List.mem_filter.mpr ⟨h.enqueued_of_started hin, hd⟩

theorem queued_of_flow (h : Flow s) (hshape : Shape anyAck s) : Queued manager s where
  one := by
    intro z z' seg seg' hseg hseg' hdestination
    obtain ⟨m, queue, hqueue, hz, hnumber⟩ := h.head_of_mem hshape hseg
    obtain ⟨m', queue', hqueue', hz', hnumber'⟩ := h.head_of_mem hshape hseg'
    rw [hdestination, hqueue'] at hqueue
    cases hqueue
    exact ⟨hz.symm.trans hz', hnumber.trans hnumber'.symm⟩
  order := started_sublist hshape.entries
  each := by
    intro m hm
    by_cases hstarted : m ∈ startedModels s.log
    · exact .inr (.inl (count_started hshape.entries hstarted))
    · rcases h.kept m hm with hcancelled | hbefore | htail | hopen
      · exact .inl hcancelled
      · exact absurd hbefore hstarted
      · refine .inr (.inr ⟨hstarted, ?_⟩)
        cases hqueue : s.queues m.pdu.destination with
        | nil =>
          rw [hqueue] at htail
          exact absurd htail List.not_mem_nil
        | cons head queue =>
          rw [hqueue] at htail
          exact ⟨head, queue, rfl, htail, h.head _ head queue id hqueue⟩
      · exact absurd hopen.1 id
  cancel := fun _ hwhole => (flow_cancelHandle h hwhole).2

/-- Two messages to 2, which is busy. -/
def busyRun : Sender :=
  [Event.sendAccessPdu (longPdu 2) false false, .sendAccessPdu (longPdu 2) false false,
    .acknowledgment ⟨2, 1, 5, 0⟩].foldl (next sampleManager) (init 5)

end Sender

end LowerTransport

end PirMesh
